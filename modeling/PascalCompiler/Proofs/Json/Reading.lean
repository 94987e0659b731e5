import PascalCompiler.Json.Parser
import PascalCompiler.Proofs.Json.Scanning

/-!
# Reading what the grammar writes

A text that the grammar of JSON writes for a value is read as that value, as
long as the value is not nested too deep. The bytes of each phrase of the grammar
are cut into tokens, and those tokens take the reader from the state in front of
the phrase to the state behind it.

## Main definitions

* `Json.Follows`: reading tokens takes the reader from one state to another
* `Json.Reads`: bytes that are read as a value

## Main results

* `Json.reads_value`: the bytes of a value are read as that value
* `Json.parse?_of_text`: so are whole texts
-/

namespace PascalCompiler.Json

open Grammar

/-! ### Phrases and their tokens -/

section Phrases

variable {start : Nat} {bytes more : Bytes} {lexemes others : List Lexeme}

theorem scans_blanks (blank : Blanks bytes) (start : Nat) : Scans start bytes [] :=
  fun found => ⟨_, reaches_blanks blank start found, rests_between _ _⟩

theorem Scans.padded {before after : Bytes} (scans : Scans (start + before.length) bytes lexemes)
    (blankBefore : Blanks before) (blankAfter : Blanks after) :
    Scans start (before ++ (bytes ++ after)) lexemes := by
  intro found
  obtain ⟨s, run, rests⟩ := scans found
  obtain ⟨s', run', rests'⟩ := rests.blanks blankAfter
  refine ⟨s', (reaches_blanks blankBefore start found).append (run.append run'), ?_⟩
  rw [List.length_append, List.length_append, ← Nat.add_assoc, ← Nat.add_assoc]
  exact rests'

/-- A punctuation mark separates what stands before and after it. -/
theorem Scans.mark (first : Scans start bytes lexemes) {c : Char} {token : Token}
    (delimiter : isDelimiter c) (mark : Scanner.punctuation? c = some token)
    (rest : Scans (start + bytes.length + 1) more others) :
    Scans start (bytes ++ ascii c :: more)
      (lexemes ++ ⟨token, ⟨start + bytes.length, start + bytes.length + 1⟩⟩ :: others) := by
  intro found
  obtain ⟨s, run, rests⟩ := first found
  obtain ⟨s', run', rests'⟩ := rest
    (⟨token, ⟨start + bytes.length, start + bytes.length + 1⟩⟩ :: (lexemes.reverse ++ found))
  refine ⟨s', run.append (.cons (rests.punctuation delimiter mark) run'), ?_⟩
  have stop : start + (bytes ++ ascii c :: more).length =
      start + bytes.length + 1 + more.length := by
    simp only [List.length_append, List.length_cons]
    omega
  rw [stop, List.reverse_append, List.reverse_cons, List.append_assoc, List.append_assoc]
  exact rests'

/-- Brackets or braces around a phrase. -/
theorem Scans.enclosed (inner : Scans (start + 1) bytes lexemes) {c d : Char}
    {opening closing : Token} (delimiterOpen : isDelimiter c)
    (markOpen : Scanner.punctuation? c = some opening) (delimiterClose : isDelimiter d)
    (markClose : Scanner.punctuation? d = some closing) :
    Scans start (ascii c :: (bytes ++ [ascii d]))
      (⟨opening, ⟨start, start + 1⟩⟩ ::
        (lexemes ++ [⟨closing, ⟨start + 1 + bytes.length, start + 1 + bytes.length + 1⟩⟩])) := by
  have noBlanks : Blanks [] := fun _ mem => (nomatch mem)
  have closed := inner.mark delimiterClose markClose (scans_blanks noBlanks _)
  exact (scans_blanks noBlanks start).mark delimiterOpen markOpen closed

end Phrases

/-! ### Runs of the reader -/

/-- Reading the tokens takes the reader from one state to the other. -/
def Follows (state : State) (lexemes : List Lexeme) (state' : State) : Prop :=
  lexemes.foldlM State.step state = some state'

section Runs

variable {state state' state'' : State} {lexemes others : List Lexeme} {lexeme : Lexeme}

theorem Follows.nil (state : State) : Follows state [] state := rfl

theorem Follows.cons (first : state.step lexeme = some state')
    (rest : Follows state' lexemes state'') : Follows state (lexeme :: lexemes) state'' := by
  rw [Follows, List.foldlM_cons, first]
  exact rest

theorem Follows.append (first : Follows state lexemes state')
    (rest : Follows state' others state'') : Follows state (lexemes ++ others) state'' := by
  rw [Follows, List.foldlM_append, first]
  exact rest

/-- Where a value is read inside a new array, it is read as its first item. -/
theorem Follows.firstItem {opened : Nat} {frames frames' : List Frame} {json : Json}
    (run : Follows (.expect (.array opened [] :: frames)) lexemes (.after json frames')) :
    Follows (.firstItem opened frames) lexemes (.after json frames') := by
  cases lexemes with
  | nil => cases run
  | cons lexeme rest =>
    have same : State.step (.firstItem opened frames) lexeme =
        State.step (.expect (.array opened [] :: frames)) lexeme := by
      obtain ⟨token, span⟩ := lexeme
      -- a closing bracket starts no value, so the run cannot begin with one
      cases token with
      | closeBracket => cases run
      | _ => rfl
    rw [Follows, List.foldlM_cons] at run ⊢
    rw [same]
    exact run

/-- Where another name is read inside a new object, the first one is. -/
theorem Follows.firstKey {opened : Nat} {frames frames' : List Frame} {json : Json}
    (run : Follows (.nextKey opened [] frames) lexemes (.after json frames')) :
    Follows (.firstKey opened frames) lexemes (.after json frames') := by
  cases lexemes with
  | nil => cases run
  | cons lexeme rest =>
    have same : State.step (.firstKey opened frames) lexeme =
        State.step (.nextKey opened [] frames) lexeme := by
      obtain ⟨token, span⟩ := lexeme
      -- a closing brace is no name, so the run cannot begin with one
      cases token with
      | closeBrace => cases run
      | _ => rfl
    rw [Follows, List.foldlM_cons] at run ⊢
    rw [same]
    exact run

end Runs

/-! ### Phrases and their values -/

/-- The bytes are read as the value, wherever it is expected and not too deep. -/
def Reads (start : Nat) (bytes : Bytes) (json : Json) : Prop :=
  ∃ lexemes, Scans start bytes lexemes ∧ ∀ frames, frames.length + json.depth ≤ maxDepth →
    Follows (.expect frames) lexemes (.after json frames)

/-- The bytes are read as the items of an array, up to its closing bracket. -/
def ReadsItems (start : Nat) (bytes : Bytes) (items : List Json) : Prop :=
  ∃ lexemes, Scans start bytes lexemes ∧ (items = [] → lexemes = []) ∧
    (items ≠ [] → ∀ opened done frames span, frames.length + 1 + depthItems items ≤ maxDepth →
      Follows (.expect (.array opened done :: frames)) (lexemes ++ [⟨.closeBracket, span⟩])
        (.after (.array ⟨opened, span.stop⟩ (done.reverse ++ items)) frames))

/-- The bytes are read as a member of an object, up to the end of its value. -/
def ReadsMember (start : Nat) (bytes : Bytes) (member : String × Json) : Prop :=
  ∃ lexemes, Scans start bytes lexemes ∧
    ∀ opened done frames, frames.length + 1 + member.2.depth ≤ maxDepth →
      Follows (.nextKey opened done frames) lexemes
        (.after member.2 (.object opened done member.1 :: frames))

/-- The bytes are read as the members of an object, up to its closing brace. -/
def ReadsMembers (start : Nat) (bytes : Bytes) (members : List (String × Json)) : Prop :=
  ∃ lexemes, Scans start bytes lexemes ∧ (members = [] → lexemes = []) ∧
    (members ≠ [] → ∀ opened done frames span, frames.length + 1 + depthMembers members ≤ maxDepth →
      Follows (.nextKey opened done frames) (lexemes ++ [⟨.closeBrace, span⟩])
        (.after (.object ⟨opened, span.stop⟩ (done.reverse ++ members)) frames))

section Steps

variable {start : Nat} {bytes more : Bytes}

/-- A value of one token. -/
theorem reads_token {token : Token} {json : Json} {stop : Nat}
    (scans : Scans start bytes [⟨token, ⟨start, stop⟩⟩])
    (begins : ∀ frames, State.begin? frames ⟨token, ⟨start, stop⟩⟩ = some (.after json frames)) :
    Reads start bytes json :=
  ⟨_, scans, fun frames _ => .cons (begins frames) (.nil _)⟩

theorem Reads.padded {before after : Bytes} {json : Json}
    (reads : Reads (start + before.length) bytes json) (blankBefore : Blanks before)
    (blankAfter : Blanks after) : Reads start (before ++ (bytes ++ after)) json := by
  obtain ⟨lexemes, scans, follows⟩ := reads
  exact ⟨lexemes, scans.padded blankBefore blankAfter, follows⟩

theorem ReadsItems.array {items : List Json} (reads : ReadsItems (start + 1) bytes items) :
    Reads start (ascii '[' :: (bytes ++ [ascii ']']))
      (.array ⟨start, start + bytes.length + 2⟩ items) := by
  obtain ⟨lexemes, scans, empty, follows⟩ := reads
  refine ⟨_, scans.enclosed rfl rfl rfl rfl, fun frames deep => ?_⟩
  rw [depth] at deep
  -- the array adds one frame, for which its depth leaves room
  have opens : State.step (.expect frames) ⟨.openBracket, ⟨start, start + 1⟩⟩ =
      some (.firstItem start frames) := if_pos (by omega)
  have stop : start + bytes.length + 2 = start + 1 + bytes.length + 1 := by omega
  rw [stop]
  refine .cons opens ?_
  by_cases nil : items = []
  · rw [empty nil, nil]
    exact .cons rfl (.nil _)
  · exact (follows nil start [] frames _ (by omega)).firstItem

theorem readsItems_nil (blank : Blanks bytes) (start : Nat) : ReadsItems start bytes [] :=
  ⟨[], scans_blanks blank start, fun _ => rfl, fun nonempty => absurd rfl nonempty⟩

theorem Reads.last {item : Json} (reads : Reads start bytes item) :
    ReadsItems start bytes [item] := by
  obtain ⟨lexemes, scans, follows⟩ := reads
  refine ⟨lexemes, scans, fun nil => (nomatch nil), fun _ opened done frames span deep => ?_⟩
  simp only [depthItems, Nat.max_zero] at deep
  have closes : State.step (.after item (.array opened done :: frames)) ⟨.closeBracket, span⟩ =
      some (.after (.array ⟨opened, span.stop⟩ (done.reverse ++ [item])) frames) := by
    rw [← List.reverse_cons]
    rfl
  exact (follows _ (by rw [List.length_cons]; omega)).append (.cons closes (.nil _))

theorem Reads.next {item next : Json} {rest : List Json} (reads : Reads start bytes item)
    (others : ReadsItems (start + bytes.length + 1) more (next :: rest)) :
    ReadsItems start (bytes ++ ascii ',' :: more) (item :: next :: rest) := by
  obtain ⟨lexemes, scans, follows⟩ := reads
  obtain ⟨lexemes', scans', -, follows'⟩ := others
  refine ⟨_, scans.mark rfl rfl scans', fun nil => (nomatch nil),
    fun _ opened done frames span deep => ?_⟩
  rw [depthItems] at deep
  -- the reader collects items in reverse, and turns them around when the array ends
  have here := follows (.array opened done :: frames) (by rw [List.length_cons]; omega)
  have later := follows' (List.cons_ne_nil _ _) opened (item :: done) frames span (by omega)
  rw [List.reverse_cons, List.append_assoc] at later
  rw [List.append_assoc]
  exact here.append (.cons rfl later)

theorem Reads.member {before key after : Bytes} {name : String} {json : Json}
    (reads : Reads (start + before.length + key.length + after.length + 1) bytes json)
    (blankBefore : Blanks before) (quoted : Quoted key name) (blankAfter : Blanks after) :
    ReadsMember start (before ++ (key ++ (after ++ ascii ':' :: bytes))) (name, json) := by
  obtain ⟨lexemes, scans, follows⟩ := reads
  -- the name and the blanks around it end where the colon stands
  have front := (scans_quoted quoted (start + before.length)).padded blankBefore blankAfter
  have place : start + (before ++ (key ++ after)).length =
      start + before.length + key.length + after.length := by
    simp only [List.length_append]
    omega
  have whole := front.mark (c := ':') rfl rfl (place ▸ scans)
  rw [List.append_assoc, List.append_assoc] at whole
  refine ⟨_, whole, fun opened done frames deep => ?_⟩
  exact .cons rfl (.cons rfl (follows _ (by rw [List.length_cons]; exact deep)))

theorem readsMembers_nil (blank : Blanks bytes) (start : Nat) : ReadsMembers start bytes [] :=
  ⟨[], scans_blanks blank start, fun _ => rfl, fun nonempty => absurd rfl nonempty⟩

theorem ReadsMember.last {member : String × Json} (reads : ReadsMember start bytes member) :
    ReadsMembers start bytes [member] := by
  obtain ⟨lexemes, scans, follows⟩ := reads
  refine ⟨lexemes, scans, fun nil => (nomatch nil), fun _ opened done frames span deep => ?_⟩
  simp only [depthMembers, Nat.max_zero] at deep
  have closes : State.step (.after member.2 (.object opened done member.1 :: frames))
      ⟨.closeBrace, span⟩ =
      some (.after (.object ⟨opened, span.stop⟩ (done.reverse ++ [member])) frames) := by
    rw [← List.reverse_cons]
    rfl
  exact (follows opened done frames deep).append (.cons closes (.nil _))

theorem ReadsMember.next {member next : String × Json} {rest : List (String × Json)}
    (reads : ReadsMember start bytes member)
    (others : ReadsMembers (start + bytes.length + 1) more (next :: rest)) :
    ReadsMembers start (bytes ++ ascii ',' :: more) (member :: next :: rest) := by
  obtain ⟨lexemes, scans, follows⟩ := reads
  obtain ⟨lexemes', scans', -, follows'⟩ := others
  refine ⟨_, scans.mark rfl rfl scans', fun nil => (nomatch nil),
    fun _ opened done frames span deep => ?_⟩
  rw [depthMembers] at deep
  have here := follows opened done frames (by omega)
  have later := follows' (List.cons_ne_nil _ _) opened (member :: done) frames span (by omega)
  rw [List.reverse_cons, List.append_assoc] at later
  rw [List.append_assoc]
  exact here.append (.cons rfl later)

theorem ReadsMembers.object {members : List (String × Json)}
    (reads : ReadsMembers (start + 1) bytes members) :
    Reads start (ascii '\x7b' :: (bytes ++ [ascii '\x7d']))
      (.object ⟨start, start + bytes.length + 2⟩ members) := by
  obtain ⟨lexemes, scans, empty, follows⟩ := reads
  refine ⟨_, scans.enclosed rfl rfl rfl rfl, fun frames deep => ?_⟩
  rw [depth] at deep
  have opens : State.step (.expect frames) ⟨.openBrace, ⟨start, start + 1⟩⟩ =
      some (.firstKey start frames) := if_pos (by omega)
  have stop : start + bytes.length + 2 = start + 1 + bytes.length + 1 := by omega
  rw [stop]
  refine .cons opens ?_
  by_cases nil : members = []
  · rw [empty nil, nil]
    exact .cons rfl (.nil _)
  · exact (follows nil start [] frames _ (by omega)).firstKey

end Steps

mutual

/-- The bytes of a value are read as that value. -/
theorem reads_value {start : Nat} {bytes : Bytes} {json : Json} :
    Value start bytes json → Reads start bytes json
  | .null => reads_token (scans_null start) fun _ => rfl
  | .true => reads_token (scans_true start) fun _ => rfl
  | .false => reads_token (scans_false start) fun _ => rfl
  | .number digits => reads_token (scans_number digits start) fun _ => rfl
  | .string quoted => reads_token (scans_quoted quoted start) fun _ => rfl
  | .array inner => (reads_items inner).array
  | .object inner => (reads_members inner).object

theorem reads_padded {start : Nat} {bytes : Bytes} {json : Json} :
    Padded start bytes json → Reads start bytes json
  | .mk blankBefore written blankAfter => (reads_value written).padded blankBefore blankAfter

theorem reads_items {start : Nat} {bytes : Bytes} {items : List Json} :
    Items start bytes items → ReadsItems start bytes items
  | .nil blank => readsItems_nil blank start
  | .last written => (reads_padded written).last
  | .cons written others => (reads_padded written).next (reads_items others)

theorem reads_member {start : Nat} {bytes : Bytes} {member : String × Json} :
    Member start bytes member → ReadsMember start bytes member
  | .mk blankBefore quoted blankAfter written =>
    (reads_padded written).member blankBefore quoted blankAfter

theorem reads_members {start : Nat} {bytes : Bytes} {members : List (String × Json)} :
    Members start bytes members → ReadsMembers start bytes members
  | .nil blank => readsMembers_nil blank start
  | .last written => (reads_member written).last
  | .cons written others => (reads_member written).next (reads_members others)

end

/-- A text is read as the value it is written for. -/
theorem parse?_of_text {text : Bytes} {json : Json} (written : Text text json)
    (shallow : json.depth ≤ maxDepth) : parse? text = some json := by
  -- the end of the text settles the last token
  obtain ⟨lexemes, scans, follows⟩ := reads_padded written
  obtain ⟨s, run, rests⟩ := scans []
  have run : text.foldlM Scanner.step {} = some s := run
  have cut : tokens? text = some lexemes := by
    rw [tokens?, run, Option.bind_eq_bind, Option.bind_some, rests]
    simp [between]
  have read : lexemes.foldlM State.step (.expect []) = some (.after json []) :=
    follows [] (by simpa using shallow)
  rw [parse?, cut, Option.bind_eq_bind, Option.bind_some, read]
  rfl

end PascalCompiler.Json
