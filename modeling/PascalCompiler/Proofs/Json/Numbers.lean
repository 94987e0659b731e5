import Mathlib.Data.List.TakeWhile
import PascalCompiler.Json.Parser
import PascalCompiler.Proofs.Json.Scanning

/-!
# The numbers of a JSON text

The numbers in the value of a text have literals that are numbers by the grammar of JSON. The
scanner finds no other number, and the parser keeps the tokens that it is given. So a number that
consists of digits has no needless zero in front.

## Main definitions

* `Json.Spelled`: the numbers in a value have the literals of numbers

## Main results

* `Json.spelled_of_parse?`: so have those in the value of a text
* `Json.whole_of_isUnsigned`: digits that are a number are the whole part of one
-/

namespace PascalCompiler.Json

/-- All numbers in the value have the literals of numbers. -/
inductive Spelled : Json → Prop where
  | null : Spelled .null
  | bool {value : Bool} : Spelled (.bool value)
  | number {literal : String} (isNumber : isNumber literal.toList) : Spelled (.number literal)
  | string {span : Span} {value : String} : Spelled (.string span value)
  | array {span : Span} {items : List Json} (each : ∀ item ∈ items, Spelled item) :
      Spelled (.array span items)
  | object {span : Span} {members : List (String × Json)}
      (each : ∀ member ∈ members, Spelled member.2) : Spelled (.object span members)

/-! ### Tokens -/

/-- If the token is a number, it has the literal of one. -/
def Token.Spelled (token : Token) : Prop :=
  ∀ literal, token = .number literal → isNumber literal.toList

namespace Scanner

variable {s s' : Scanner}

/-- All tokens found so far are spelled as they should be. -/
def Spelled (s : Scanner) : Prop :=
  ∀ lexeme ∈ s.lexemes, lexeme.token.Spelled

theorem Spelled.emit (spelled : s.Spelled) {token : Token} (isSpelled : token.Spelled)
    (start stop : Nat) : (s.emit token start stop).Spelled :=
  List.forall_mem_cons.mpr ⟨isSpelled, spelled⟩

theorem spelled_of_punctuation? {c : Char} {token : Token} (is : punctuation? c = some token) :
    token.Spelled := by
  rintro literal rfl
  unfold punctuation? at is
  split at is <;> cases is

theorem spelled_of_wordToken? {letters : List Char} {token : Token}
    (is : wordToken? letters = some token) : token.Spelled := by
  rintro literal rfl
  rw [wordToken?] at is
  split at is <;> cases is

theorem spelled_of_numberToken? {digits : List Char} {token : Token}
    (is : numberToken? digits = some token) : token.Spelled := by
  rintro literal rfl
  rw [numberToken?] at is
  obtain ⟨number, same⟩ := Option.ite_none_right_eq_some.mp is
  obtain rfl := Token.number.inj (Option.some_inj.mp same)
  rwa [String.toList_ofList]

theorem Spelled.begin? (spelled : s.Spelled) {c : Char} (step : s.begin? c = some s') :
    s'.Spelled := by
  rw [Scanner.begin?] at step
  -- only a mark is a token at once
  split at step
  · next is =>
    obtain rfl := Option.some_inj.mp step
    exact spelled.emit (spelled_of_punctuation? is) _ _
  · split at step
    · obtain rfl := Option.some_inj.mp step
      exact spelled
    · split at step
      · obtain rfl := Option.some_inj.mp step
        exact spelled
      · split at step
        · obtain rfl := Option.some_inj.mp step
          exact spelled
        · split at step
          · obtain rfl := Option.some_inj.mp step
            exact spelled
          · cases step

theorem Spelled.settle? (spelled : s.Spelled) (step : s.settle? = some s') : s'.Spelled := by
  rw [Scanner.settle?] at step
  split at step
  · obtain rfl := Option.some_inj.mp step
    exact spelled
  · obtain ⟨token, is, rfl⟩ := Option.map_eq_some_iff.mp step
    exact spelled.emit (spelled_of_wordToken? is) _ _
  · obtain ⟨token, is, rfl⟩ := Option.map_eq_some_iff.mp step
    exact spelled.emit (spelled_of_numberToken? is) _ _
  · cases step

theorem Spelled.step (spelled : s.Spelled) {byte : UInt8} (step : s.step byte = some s') :
    s'.Spelled := by
  rw [Scanner.step] at step
  dsimp only at step
  -- between tokens, in a word, a number or a string, behind a backslash, and in a code point
  split at step
  · exact spelled.begin? step
  · split at step
    · obtain rfl := Option.some_inj.mp step
      exact spelled
    · obtain ⟨settled, settle, step⟩ := Option.bind_eq_some_iff.mp step
      exact (spelled.settle? settle).begin? step
  · split at step
    · obtain rfl := Option.some_inj.mp step
      exact spelled
    · obtain ⟨settled, settle, step⟩ := Option.bind_eq_some_iff.mp step
      exact (spelled.settle? settle).begin? step
  · split at step
    · obtain rfl := Option.some_inj.mp step
      exact spelled.emit (fun literal same => by cases same) _ _
    · split at step
      · obtain rfl := Option.some_inj.mp step
        exact spelled
      · split at step
        · cases step
        · obtain rfl := Option.some_inj.mp step
          exact spelled
  · split at step
    · obtain rfl := Option.some_inj.mp step
      exact spelled
    · obtain ⟨b, -, rfl⟩ := Option.map_eq_some_iff.mp step
      exact spelled
  · obtain ⟨digit, -, rfl⟩ := Option.map_eq_some_iff.mp step
    split
    · exact spelled
    · exact spelled

theorem Spelled.run (spelled : s.Spelled) {bytes : Bytes} (run : Reaches s bytes s') :
    s'.Spelled := by
  induction bytes generalizing s with
  | nil => exact Option.some_inj.mp run ▸ spelled
  | cons byte rest ih =>
    -- the first byte is read by one step, the others by the rest of the run
    rw [Reaches, List.foldlM_cons] at run
    obtain ⟨next, step, run⟩ := Option.bind_eq_some_iff.mp run
    exact ih (spelled.step step) run

end Scanner

theorem spelled_of_tokens? {text : Bytes} {lexemes : List Lexeme}
    (cut : tokens? text = some lexemes) : ∀ lexeme ∈ lexemes, lexeme.token.Spelled := by
  rw [tokens?] at cut
  obtain ⟨s, scanned, cut⟩ := Option.bind_eq_some_iff.mp cut
  obtain ⟨s', settle, cut⟩ := Option.bind_eq_some_iff.mp cut
  obtain rfl := Option.some_inj.mp cut
  have start : Scanner.Spelled {} := List.forall_mem_nil _
  have spelled : s'.Spelled := (start.run scanned).settle? settle
  exact fun lexeme mem => spelled lexeme (List.mem_reverse.mp mem)

/-! ### Values -/

/-- All values read so far are spelled as they should be. -/
def Frame.Spelled : Frame → Prop
  | .array _ items => ∀ item ∈ items, item.Spelled
  | .object _ members _ => ∀ member ∈ members, member.2.Spelled

namespace State

/-- All values read so far are spelled as they should be. -/
def Spelled : State → Prop
  | .expect frames | .firstItem _ frames | .firstKey _ frames => ∀ frame ∈ frames, frame.Spelled
  | .nextKey _ members frames | .colon _ members _ frames =>
    (∀ member ∈ members, member.2.Spelled) ∧ ∀ frame ∈ frames, frame.Spelled
  | .after value frames => value.Spelled ∧ ∀ frame ∈ frames, frame.Spelled

variable {state state' : State} {lexeme : Lexeme}

theorem spelled_begin? {frames : List Frame} (spelled : ∀ frame ∈ frames, frame.Spelled)
    (token : lexeme.token.Spelled) (step : begin? frames lexeme = some state') :
    state'.Spelled := by
  rw [begin?] at step
  split at step
  · obtain rfl := Option.some_inj.mp step
    exact ⟨.null, spelled⟩
  · obtain rfl := Option.some_inj.mp step
    exact ⟨.bool, spelled⟩
  · next is =>
    obtain rfl := Option.some_inj.mp step
    exact ⟨.number (token _ is), spelled⟩
  · obtain rfl := Option.some_inj.mp step
    exact ⟨.string, spelled⟩
  · obtain ⟨-, same⟩ := Option.ite_none_right_eq_some.mp step
    obtain rfl := Option.some_inj.mp same
    exact spelled
  · obtain ⟨-, same⟩ := Option.ite_none_right_eq_some.mp step
    obtain rfl := Option.some_inj.mp same
    exact spelled
  · cases step

theorem spelled_continue? {value : Json} {frames : List Frame} (isSpelled : value.Spelled)
    (spelled : ∀ frame ∈ frames, frame.Spelled)
    (step : continue? value lexeme frames = some state') : state'.Spelled := by
  cases frames with
  | nil => cases step
  | cons frame frames =>
    obtain ⟨first, outer⟩ := List.forall_mem_cons.mp spelled
    cases frame with
    | array start items =>
      -- the value joins the items that were read before it
      have longer : ∀ item ∈ value :: items, item.Spelled :=
        List.forall_mem_cons.mpr ⟨isSpelled, first⟩
      rw [continue?] at step
      split at step
      · obtain rfl := Option.some_inj.mp step
        exact List.forall_mem_cons.mpr ⟨longer, outer⟩
      · obtain rfl := Option.some_inj.mp step
        exact ⟨.array fun item mem => longer item (List.mem_reverse.mp mem), outer⟩
      · cases step
    | object start members key =>
      have longer : ∀ member ∈ (key, value) :: members, member.2.Spelled :=
        List.forall_mem_cons.mpr ⟨isSpelled, first⟩
      rw [continue?] at step
      split at step
      · obtain rfl := Option.some_inj.mp step
        exact ⟨longer, outer⟩
      · obtain rfl := Option.some_inj.mp step
        exact ⟨.object fun member mem => longer member (List.mem_reverse.mp mem), outer⟩
      · cases step

theorem Spelled.step (spelled : state.Spelled) (token : lexeme.token.Spelled)
    (step : state.step lexeme = some state') : state'.Spelled := by
  cases state with
  | expect frames => exact spelled_begin? spelled token step
  | firstItem start frames =>
    rw [State.step] at step
    split at step
    · obtain rfl := Option.some_inj.mp step
      exact ⟨.array (List.forall_mem_nil _), spelled⟩
    · have opened : ∀ frame ∈ Frame.array start [] :: frames, frame.Spelled :=
        List.forall_mem_cons.mpr ⟨fun item mem => absurd mem List.not_mem_nil, spelled⟩
      exact spelled_begin? opened token step
  | firstKey start frames =>
    rw [State.step] at step
    split at step
    · obtain rfl := Option.some_inj.mp step
      exact ⟨.object (List.forall_mem_nil _), spelled⟩
    · obtain rfl := Option.some_inj.mp step
      exact ⟨List.forall_mem_nil _, spelled⟩
    · cases step
  | nextKey start members frames =>
    rw [State.step] at step
    split at step
    · obtain rfl := Option.some_inj.mp step
      exact spelled
    · cases step
  | colon start members key frames =>
    rw [State.step] at step
    split at step
    · obtain rfl := Option.some_inj.mp step
      exact List.forall_mem_cons.mpr spelled
    · cases step
  | after value frames => exact spelled_continue? spelled.1 spelled.2 step

theorem Spelled.run (spelled : state.Spelled) {lexemes : List Lexeme}
    (tokens : ∀ lexeme ∈ lexemes, lexeme.token.Spelled)
    (run : lexemes.foldlM State.step state = some state') : state'.Spelled := by
  induction lexemes generalizing state with
  | nil => exact Option.some_inj.mp run ▸ spelled
  | cons lexeme rest ih =>
    obtain ⟨first, others⟩ := List.forall_mem_cons.mp tokens
    rw [List.foldlM_cons] at run
    obtain ⟨next, step, run⟩ := Option.bind_eq_some_iff.mp run
    exact ih (spelled.step first step) others run

theorem Spelled.result (spelled : state.Spelled) {json : Json} (read : state.result? = some json) :
    json.Spelled := by
  cases state with
  | after value frames =>
    cases frames with
    | nil => exact Option.some_inj.mp read ▸ spelled.1
    | cons => cases read
  | _ => cases read

end State

/-- The numbers in the value of a text have the literals of numbers. -/
theorem spelled_of_parse? {text : Bytes} {json : Json} (parsed : parse? text = some json) :
    json.Spelled := by
  rw [parse?] at parsed
  obtain ⟨lexemes, cut, parsed⟩ := Option.bind_eq_some_iff.mp parsed
  obtain ⟨state, run, parsed⟩ := Option.bind_eq_some_iff.mp parsed
  have start : (State.expect []).Spelled := List.forall_mem_nil _
  exact (start.run (spelled_of_tokens? cut) run).result parsed

/-! ### Digits -/

/-- Digits that are a number without sign are the whole part of one. -/
theorem whole_of_isUnsigned {digits : List Char} (all : ∀ c ∈ digits, c.isDigit)
    (unsigned : isUnsigned digits) : Grammar.Whole digits := by
  have same : digits.takeWhile Char.isDigit = digits := List.takeWhile_eq_self_iff.mpr all
  simp only [isUnsigned, same, isDigits, Bool.and_eq_true, Bool.or_eq_true, bne_iff_ne,
    beq_iff_eq] at unsigned
  obtain ⟨⟨⟨nonempty, -⟩, noZero⟩, -⟩ := unsigned
  cases digits with
  | nil => cases nonempty
  | cons d rest =>
    obtain ⟨first, others⟩ := List.forall_mem_cons.mp all
    by_cases zero : d = '0'
    · -- nothing follows a zero
      have single := noZero.resolve_left fun ne => ne (congrArg some zero)
      obtain rfl := List.eq_nil_of_length_eq_zero (Nat.succ_inj.mp single)
      exact zero ▸ .zero
    · exact .digits first zero others

theorem isNumber_of_ne_minus {c : Char} {rest : List Char} (noMinus : c ≠ '-') :
    isNumber (c :: rest) = isUnsigned (c :: rest) := by
  rw [isNumber]
  intro others same
  exact noMinus (List.cons.inj same).1

end PascalCompiler.Json
