import PascalCompiler.Json.Parser
import PascalCompiler.Proofs.Json.Scanning

/-!
# How objects begin

A text that is read as an object begins with a brace, blanks apart. Two machines have a say in
this. If the first token is no brace, then the parser is inside an array or has read some other
value, and stays so. If the first byte that is no blank is no brace, then the scanner is inside
some other token or has found one, and stays so.

## Main definitions

* `Json.State.Inside`: the outermost value is no object
* `Json.Scanner.Started`: the first token is no brace

## Main results

* `Json.exists_brace_of_parse?`: objects begin with a brace
-/

namespace PascalCompiler.Json

open Grammar

/-! ### The first token of an object -/

/-- The outermost frame is an array. -/
def Outer (frames : List Frame) : Prop :=
  ∃ inner start items, frames = inner ++ [.array start items]

theorem outer_array {frames : List Frame} (outer : frames = [] ∨ Outer frames) (start : Nat)
    (items : List Json) : Outer (.array start items :: frames) := by
  obtain rfl | ⟨inner, outerStart, outerItems, rfl⟩ := outer
  · exact ⟨[], start, items, rfl⟩
  · exact ⟨.array start items :: inner, outerStart, outerItems, rfl⟩

theorem Outer.tail {frame : Frame} {frames : List Frame} (outer : Outer (frame :: frames)) :
    (frames = [] ∧ ∃ start items, frame = .array start items) ∨ Outer frames := by
  obtain ⟨inner, start, items, same⟩ := outer
  cases inner with
  | nil =>
    obtain ⟨rfl, rfl⟩ := List.cons.inj same
    exact .inl ⟨rfl, start, items, rfl⟩
  | cons first inner =>
    obtain ⟨-, rfl⟩ := List.cons.inj same
    exact .inr ⟨inner, start, items, rfl⟩

theorem Outer.object {start : Nat} {members : List (String × Json)} {key : String}
    {frames : List Frame} (outer : Outer (.object start members key :: frames)) :
    Outer frames := by
  obtain ⟨-, _, _, ⟨⟩⟩ | outer := outer.tail
  exact outer

/-- The outermost value is no object. -/
def State.Inside : State → Prop
  | .expect frames | .firstKey _ frames | .nextKey _ _ frames | .colon _ _ _ frames => Outer frames
  | .firstItem _ frames => frames = [] ∨ Outer frames
  | .after value frames =>
    (frames = [] ∧ ∀ span members, value ≠ .object span members) ∨ Outer frames

namespace State

variable {state state' : State} {lexeme : Lexeme}

theorem inside_begin? {frames : List Frame} (outer : Outer frames)
    (step : begin? frames lexeme = some state') : state'.Inside := by
  rw [begin?] at step
  split at step
  -- a scalar, or an array or object that is opened inside the frames
  iterate 4
    obtain rfl := Option.some_inj.mp step
    exact .inr outer
  · split at step
    · obtain rfl := Option.some_inj.mp step
      exact .inr outer
    · cases step
  · split at step
    · obtain rfl := Option.some_inj.mp step
      exact outer
    · cases step
  · cases step

theorem inside_continue? {value : Json} {frames : List Frame} (outer : Outer frames)
    (step : continue? value lexeme frames = some state') : state'.Inside := by
  cases frames with
  | nil => cases step
  | cons frame frames =>
    cases frame with
    | array start items =>
      have rest : frames = [] ∨ Outer frames := outer.tail.imp_left And.left
      rw [continue?] at step
      split at step
      · obtain rfl := Option.some_inj.mp step
        exact outer_array rest _ _
      · obtain rfl := Option.some_inj.mp step
        exact rest.imp_left fun none => ⟨none, fun _ _ same => by cases same⟩
      · cases step
    | object start members key =>
      rw [continue?] at step
      split at step
      · obtain rfl := Option.some_inj.mp step
        exact outer.object
      · obtain rfl := Option.some_inj.mp step
        exact .inr outer.object
      · cases step

theorem Inside.step (inside : state.Inside) (step : state.step lexeme = some state') :
    state'.Inside := by
  cases state with
  | expect frames => exact inside_begin? inside step
  | firstItem start frames =>
    rw [State.step] at step
    split at step
    · obtain rfl := Option.some_inj.mp step
      exact inside.imp_left fun none => ⟨none, fun _ _ same => by cases same⟩
    · exact inside_begin? (outer_array inside _ _) step
  | firstKey start frames =>
    rw [State.step] at step
    split at step
    · obtain rfl := Option.some_inj.mp step
      exact .inr inside
    · obtain rfl := Option.some_inj.mp step
      exact inside
    · cases step
  | nextKey start members frames =>
    rw [State.step] at step
    split at step
    · obtain rfl := Option.some_inj.mp step
      exact inside
    · cases step
  | colon start members key frames =>
    rw [State.step] at step
    split at step
    · obtain rfl := Option.some_inj.mp step
      obtain ⟨inner, outerStart, items, rfl⟩ := inside
      exact ⟨.object start members key :: inner, outerStart, items, rfl⟩
    · cases step
  | after value frames =>
    obtain ⟨rfl, -⟩ | outer := inside
    · cases step
    · exact inside_continue? outer step

theorem Inside.run (inside : state.Inside) {lexemes : List Lexeme}
    (run : lexemes.foldlM State.step state = some state') : state'.Inside := by
  induction lexemes generalizing state with
  | nil => exact Option.some_inj.mp run ▸ inside
  | cons lexeme rest ih =>
    rw [List.foldlM_cons] at run
    obtain ⟨next, step, run⟩ := Option.bind_eq_some_iff.mp run
    exact ih (inside.step step) run

/-- Behind a first token that is no brace, the outermost value is no object. -/
theorem inside_of_first (other : lexeme.token ≠ .openBrace)
    (step : (State.expect []).step lexeme = some state) : state.Inside := by
  rw [State.step, begin?] at step
  split at step
  iterate 4
    obtain rfl := Option.some_inj.mp step
    exact .inl ⟨rfl, fun _ _ same => by cases same⟩
  · split at step
    · obtain rfl := Option.some_inj.mp step
      exact .inl rfl
    · cases step
  · next brace => exact absurd brace other
  · cases step

theorem Inside.result?_ne (inside : state.Inside) {span : Span} {members : List (String × Json)} :
    state.result? ≠ some (.object span members) := by
  intro read
  cases state with
  | after value frames =>
    obtain ⟨rfl, other⟩ | ⟨inner, start, items, rfl⟩ := inside
    · exact other span members (Option.some_inj.mp read)
    · cases inner <;> cases read
  | _ => cases read

end State

theorem first_token_of_object {lexemes : List Lexeme} {state : State} {span : Span}
    {members : List (String × Json)} (run : lexemes.foldlM State.step (.expect []) = some state)
    (read : state.result? = some (.object span members)) :
    ∃ first rest, lexemes = first :: rest ∧ first.token = .openBrace := by
  cases lexemes with
  | nil =>
    obtain rfl := Option.some_inj.mp run
    cases read
  | cons first rest =>
    refine ⟨first, rest, rfl, Classical.byContradiction fun other => ?_⟩
    -- what begins otherwise never becomes an object
    rw [List.foldlM_cons] at run
    obtain ⟨next, step, run⟩ := Option.bind_eq_some_iff.mp run
    exact ((State.inside_of_first other step).run run).result?_ne read

/-! ### The first byte of an object -/

namespace Scanner

variable {s s' : Scanner} {byte : UInt8}

/-- The first token that was found is no brace. -/
def Begun (s : Scanner) : Prop :=
  ∃ found first, s.lexemes = found ++ [first] ∧ first.token ≠ .openBrace

/-- The first token has been found or is being read, and it is no brace. -/
def Started (s : Scanner) : Prop :=
  s.Begun ∨ (s.lexemes = [] ∧ s.mode ≠ .between)

theorem Begun.emit (begun : s.Begun) (token : Token) (start stop : Nat) :
    (s.emit token start stop).Begun := by
  obtain ⟨found, first, same, other⟩ := begun
  exact ⟨⟨token, ⟨start, stop⟩⟩ :: found, first, by rw [Scanner.emit, same]; rfl, other⟩

/-- A token that is no brace can be the first. -/
theorem Started.emit (started : s.Started) {token : Token} (other : token ≠ .openBrace)
    (start stop : Nat) : (s.emit token start stop).Begun := by
  obtain begun | ⟨none, -⟩ := started
  · exact begun.emit token start stop
  · exact ⟨[], ⟨token, ⟨start, stop⟩⟩, by rw [Scanner.emit, none]; rfl, other⟩

theorem Started.goTo (started : s.Started) {mode : Mode} (inside : mode ≠ .between) :
    (s.goTo mode).Started :=
  started.imp id fun none => ⟨none.1, inside⟩

theorem Begun.begin? (begun : s.Begun) {c : Char} (step : s.begin? c = some s') : s'.Begun := by
  rw [Scanner.begin?] at step
  -- only a mark is a token at once, and it goes in front of the others
  split at step
  · obtain rfl := Option.some_inj.mp step
    exact begun.emit _ _ _
  · split at step
    · obtain rfl := Option.some_inj.mp step
      exact begun
    · split at step
      · obtain rfl := Option.some_inj.mp step
        exact begun
      · split at step
        · obtain rfl := Option.some_inj.mp step
          exact begun
        · split at step
          · obtain rfl := Option.some_inj.mp step
            exact begun
          · cases step

theorem wordToken?_ne {letters : List Char} {token : Token} (is : wordToken? letters = some token) :
    token ≠ .openBrace := by
  rw [wordToken?] at is
  split at is <;> cases is <;> decide

theorem numberToken?_ne {digits : List Char} {token : Token}
    (is : numberToken? digits = some token) : token ≠ .openBrace := by
  rw [numberToken?] at is
  split at is <;> cases is
  exact fun same => by cases same

theorem Started.settle? (started : s.Started) (step : s.settle? = some s') : s'.Begun := by
  rw [Scanner.settle?] at step
  split at step
  · next mode =>
    obtain rfl := Option.some_inj.mp step
    exact started.resolve_right fun inside => inside.2 mode
  · obtain ⟨token, is, rfl⟩ := Option.map_eq_some_iff.mp step
    exact started.emit (wordToken?_ne is) _ _
  · obtain ⟨token, is, rfl⟩ := Option.map_eq_some_iff.mp step
    exact started.emit (numberToken?_ne is) _ _
  · cases step

theorem Started.step (started : s.Started) (step : s.step byte = some s') : s'.Started := by
  rw [Scanner.step] at step
  dsimp only at step
  -- between tokens, in a word, a number or a string, behind a backslash, and in a code point
  split at step
  · next mode => exact .inl ((started.resolve_right fun inside => inside.2 mode).begin? step)
  · split at step
    · obtain rfl := Option.some_inj.mp step
      exact started.goTo fun same => by cases same
    · obtain ⟨settled, settle, step⟩ := Option.bind_eq_some_iff.mp step
      exact .inl ((started.settle? settle).begin? step)
  · split at step
    · obtain rfl := Option.some_inj.mp step
      exact started.goTo fun same => by cases same
    · obtain ⟨settled, settle, step⟩ := Option.bind_eq_some_iff.mp step
      exact .inl ((started.settle? settle).begin? step)
  · split at step
    · obtain rfl := Option.some_inj.mp step
      exact .inl (started.emit (fun same => by cases same) _ _)
    · split at step
      · obtain rfl := Option.some_inj.mp step
        exact started.goTo fun same => by cases same
      · split at step
        · cases step
        · obtain rfl := Option.some_inj.mp step
          exact started.goTo fun same => by cases same
  · split at step
    · obtain rfl := Option.some_inj.mp step
      exact started.goTo fun same => by cases same
    · obtain ⟨b, -, rfl⟩ := Option.map_eq_some_iff.mp step
      exact started.goTo fun same => by cases same
  · obtain ⟨digit, -, rfl⟩ := Option.map_eq_some_iff.mp step
    split
    · exact started.goTo fun same => by cases same
    · exact started.goTo fun same => by cases same

theorem Started.run (started : s.Started) {bytes : Bytes} (run : Reaches s bytes s') :
    s'.Started := by
  induction bytes generalizing s with
  | nil => exact Option.some_inj.mp run ▸ started
  | cons byte rest ih =>
    rw [Reaches, List.foldlM_cons] at run
    obtain ⟨next, step, run⟩ := Option.bind_eq_some_iff.mp run
    exact ih (started.step step) run

end Scanner

theorem eq_ascii_of_ofNat {b : UInt8} {c : Char} (same : Char.ofNat b.toNat = c) :
    b = ascii c := by
  have number : b.toNat = c.toNat :=
    Classical.byContradiction fun ne => ofNat_toNat_ne ne same
  rw [ascii, ← number, Nat.toUInt8, UInt8.ofNat_toNat]

theorem eq_brace_of_punctuation? {c : Char} (is : Scanner.punctuation? c = some .openBrace) :
    c = '\x7b' := by
  unfold Scanner.punctuation? at is
  split at is
  · rfl
  all_goals cases is

theorem blank_of_isSpace {b : UInt8} (is : Scanner.isSpace (Char.ofNat b.toNat)) : Blanks [b] := by
  rw [Scanner.isSpace, Bool.or_eq_true, Bool.or_eq_true, Bool.or_eq_true] at is
  rintro _ (_ | ⟨_, ⟨⟩⟩)
  obtain ((space | tab) | feed) | back := is
  · exact .inl (eq_ascii_of_ofNat (eq_of_beq space))
  · exact .inr (.inl (eq_ascii_of_ofNat (eq_of_beq tab)))
  · exact .inr (.inr (.inl (eq_ascii_of_ofNat (eq_of_beq feed))))
  · exact .inr (.inr (.inr (eq_ascii_of_ofNat (eq_of_beq back))))

/-- If the first token is a brace, then so is the first byte, blanks apart. -/
theorem exists_brace_of_run {bytes : Bytes} {offset : Nat} {s s' : Scanner} {found : List Lexeme}
    {first : Lexeme} (run : Reaches (between offset []) bytes s) (settle : s.settle? = some s')
    (tokens : s'.lexemes = found ++ [first]) (brace : first.token = .openBrace) :
    ∃ before rest, Blanks before ∧ bytes = before ++ ascii '\x7b' :: rest := by
  -- once the first token is another one, it remains so
  have absurd_of_started {next : Scanner} {rest : Bytes} (started : next.Started)
      (run : Reaches next rest s) : False := by
    obtain ⟨others, other, same, ne⟩ := (started.run run).settle? settle
    rw [tokens] at same
    obtain ⟨-, last⟩ := List.append_inj' same rfl
    rw [← (List.cons.inj last).1] at ne
    exact ne brace
  induction bytes generalizing offset with
  | nil =>
    obtain rfl := Option.some_inj.mp run
    obtain rfl := Option.some_inj.mp settle
    exact absurd tokens.symm (List.append_ne_nil_of_right_ne_nil found (List.cons_ne_nil _ _))
  | cons byte rest ih =>
    rw [Reaches, List.foldlM_cons] at run
    obtain ⟨next, step, run⟩ := Option.bind_eq_some_iff.mp run
    have step : (between offset []).begin? (Char.ofNat byte.toNat) = some next := step
    rw [Scanner.begin?] at step
    split at step
    · next token is =>
      obtain rfl := Option.some_inj.mp step
      by_cases same : token = .openBrace
      · have first := eq_ascii_of_ofNat (eq_brace_of_punctuation? (same ▸ is))
        exact ⟨[], rest, List.forall_mem_nil _, by rw [first]; rfl⟩
      · exact (absurd_of_started (.inl ⟨[], _, rfl, same⟩) run).elim
    · split at step
      · next space =>
        obtain rfl := Option.some_inj.mp step
        obtain ⟨before, rest, blank, rfl⟩ := ih run
        exact ⟨byte :: before, rest,
          List.forall_mem_cons.mpr ⟨blank_of_isSpace space byte List.mem_cons_self, blank⟩, rfl⟩
      · -- any other byte begins a string, a number or a word
        have started : next.Started := by
          split at step
          · obtain rfl := Option.some_inj.mp step
            exact .inr ⟨rfl, fun same => by cases same⟩
          · split at step
            · obtain rfl := Option.some_inj.mp step
              exact .inr ⟨rfl, fun same => by cases same⟩
            · split at step
              · obtain rfl := Option.some_inj.mp step
                exact .inr ⟨rfl, fun same => by cases same⟩
              · cases step
        exact (absurd_of_started started run).elim

/-- A text that is read as an object begins with a brace, blanks apart. -/
theorem exists_brace_of_parse? {text : Bytes} {span : Span} {members : List (String × Json)}
    (read : parse? text = some (.object span members)) :
    ∃ before rest, Blanks before ∧ text = before ++ ascii '\x7b' :: rest := by
  rw [parse?] at read
  obtain ⟨lexemes, cut, read⟩ := Option.bind_eq_some_iff.mp read
  obtain ⟨state, run, read⟩ := Option.bind_eq_some_iff.mp read
  obtain ⟨first, rest, rfl, brace⟩ := first_token_of_object run read
  rw [tokens?] at cut
  obtain ⟨s, scanned, cut⟩ := Option.bind_eq_some_iff.mp cut
  obtain ⟨s', settle, cut⟩ := Option.bind_eq_some_iff.mp cut
  have tokens : s'.lexemes = rest.reverse ++ [first] := by
    rw [← List.reverse_cons, ← Option.some_inj.mp cut, List.reverse_reverse]
  exact exists_brace_of_run scanned settle tokens brace

end PascalCompiler.Json
