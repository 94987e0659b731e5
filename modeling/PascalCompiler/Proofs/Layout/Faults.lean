import Mathlib.Data.List.Induction
import Mathlib.Data.List.TakeWhile
import PascalCompiler.Proofs.Layout.Rendering

/-!
# Scripts that cannot be laid out

A script is refused for a zero byte, for a literal that is not closed, and for braces that do
not match. Which bytes are outside of literals, and which braces match, is said here by what
literals look like and by counting braces. Nothing here keeps a stack of open braces, as the
layout does; all that is needed of the stack is how many braces it has.

## Main definitions

* `Bytes.StandsAt`: the line and column of a byte
* `Literal`, `Unclosed`: a literal, and a text that starts one and does not close it
* `Outside`: the bytes outside of the literals of a text
* `Matched`, `Balanced`: no closing brace is without an open one, and none is left open
* `Offends`: the first fault of a script, and its offset

## Main results

* `offends_iff`: which scripts have a fault
* `lines_eq_error_iff`: the layout finds the first fault
* `format_fails_exactly`: when the layout fails, and what it reports
-/

namespace PascalCompiler

/-! ### Lines and columns -/

/-- The byte behind these is in that line and column, both counted from one. -/
inductive Bytes.StandsAt : Bytes → Nat → Nat → Prop where
  | first {current : Bytes} (unbroken : lineFeed ∉ current) :
      StandsAt current 1 (current.length + 1)
  | later {lines current : Bytes} (unbroken : lineFeed ∉ current) :
      StandsAt (lines ++ lineFeed :: current) (lines.count lineFeed + 2) (current.length + 1)

theorem Bytes.takeWhile_of_unbroken {current : Bytes} (unbroken : lineFeed ∉ current) :
    current.reverse.takeWhile (· != lineFeed) = current.reverse := by
  refine List.takeWhile_eq_self_iff.mpr fun byte mem => ?_
  have other : byte ≠ lineFeed := fun same => unbroken (same ▸ List.mem_reverse.mp mem)
  simpa using other

theorem Bytes.lineColumn_of_standsAt {before : Bytes} {line column : Nat}
    (stands : StandsAt before line column) : lineColumn before = (line, column) := by
  cases stands with
  | first unbroken =>
    rw [lineColumn, takeWhile_of_unbroken unbroken, List.count_eq_zero.mpr unbroken,
      List.length_reverse]
  | @later lines current unbroken =>
    have isCurrent : (lines ++ lineFeed :: current).reverse.takeWhile (· != lineFeed) =
        current.reverse := by
      rw [List.reverse_append, List.reverse_cons, List.append_assoc, List.singleton_append,
        List.takeWhile_append, takeWhile_of_unbroken unbroken]
      simp
    rw [lineColumn, isCurrent, List.length_reverse, List.count_append, List.count_cons_self,
      List.count_eq_zero.mpr unbroken]

theorem Bytes.exists_standsAt (before : Bytes) : ∃ line column, StandsAt before line column := by
  by_cases broken : lineFeed ∈ before
  · obtain ⟨current, lines, same, unbroken⟩ :=
      List.eq_append_cons_of_mem (List.mem_reverse.mpr broken)
    have isBefore : before = lines.reverse ++ lineFeed :: current.reverse := by
      rw [← List.reverse_reverse before, same]
      simp
    rw [isBefore]
    exact ⟨_, _, .later (by simpa using unbroken)⟩
  · exact ⟨_, _, .first broken⟩

theorem Bytes.standsAt_iff {before : Bytes} {line column : Nat} :
    StandsAt before line column ↔ lineColumn before = (line, column) := by
  refine ⟨lineColumn_of_standsAt, fun same => ?_⟩
  obtain ⟨_, _, stands⟩ := exists_standsAt before
  obtain ⟨rfl, rfl⟩ := Prod.mk.inj ((lineColumn_of_standsAt stands).symm.trans same)
  exact stands

namespace Layout

open Piece

/-! ### Literals -/

/-- What stands between quotes: other bytes, but no line feed, and pairs of a backslash and
any byte. -/
inductive Body (quote : UInt8) : Bytes → Prop where
  | nil : Body quote []
  | byte {byte : UInt8} {rest : Bytes} (noQuote : byte ≠ quote) (noBackslash : byte ≠ 0x5C)
      (noBreak : byte ≠ Bytes.lineFeed) (behind : Body quote rest) : Body quote (byte :: rest)
  | escape {byte : UInt8} {rest : Bytes} (behind : Body quote rest) :
      Body quote (0x5C :: byte :: rest)

/-- A literal, with the quote that it starts and ends with: a double or a single one. -/
inductive Literal : Bytes → Prop where
  | mk {quote : UInt8} {body : Bytes} (quoted : quote = 0x22 ∨ quote = 0x27)
      (inner : Body quote body) : Literal (quote :: (body ++ [quote]))

/-- The text starts with a quote that is not closed before the line or the text ends. -/
def Unclosed (text : Bytes) : Prop :=
  (∃ quote rest, text = quote :: rest ∧ (quote = 0x22 ∨ quote = 0x27)) ∧
    ∀ literal, Literal literal → ¬ literal <+: text

/-- A text in which every literal is closed, and its bytes outside of literals. -/
inductive Outside : Bytes → Bytes → Prop where
  | nil : Outside [] []
  | byte {byte : UInt8} {text loose : Bytes} (noQuote : byte ≠ 0x22 ∧ byte ≠ 0x27)
      (behind : Outside text loose) : Outside (byte :: text) (byte :: loose)
  | literal {first text loose : Bytes} (isLiteral : Literal first) (behind : Outside text loose) :
      Outside (first ++ text) loose

theorem Outside.append {text more loose others : Bytes} (outside : Outside text loose)
    (behind : Outside more others) : Outside (text ++ more) (loose ++ others) := by
  induction outside with
  | nil => exact behind
  | byte noQuote _ ih => exact .byte noQuote ih
  | literal isLiteral _ ih =>
    rw [List.append_assoc]
    exact .literal isLiteral ih

/-- Every byte outside of literals divides the text into two that are closed. -/
theorem Outside.divide {text front back : Bytes} {byte : UInt8}
    (outside : Outside text (front ++ byte :: back)) :
    ∃ before after, text = before ++ byte :: after ∧ Outside before front ∧ Outside after back := by
  generalize same : front ++ byte :: back = loose at outside
  induction outside generalizing front with
  | nil => simp at same
  | @byte first text loose noQuote behind ih =>
    cases front with
    | nil =>
      obtain ⟨rfl, rfl⟩ := List.cons.inj same
      exact ⟨[], text, rfl, .nil, behind⟩
    | cons other front =>
      obtain ⟨rfl, rest⟩ := List.cons.inj same
      obtain ⟨before, after, rfl, isFront, isBack⟩ := ih rest
      exact ⟨other :: before, after, rfl, .byte noQuote isFront, isBack⟩
  | @literal first text loose isLiteral _ ih =>
    obtain ⟨before, after, rfl, isFront, isBack⟩ := ih same
    exact ⟨first ++ before, after, (List.append_assoc ..).symm, .literal isLiteral isFront, isBack⟩

/-- The literals of a text are closed up to its end, or up to one that is not. -/
theorem exists_outside (text : Bytes) :
    ∃ before rest loose, text = before ++ rest ∧ Outside before loose ∧
      (rest = [] ∨ Unclosed rest) := by
  induction size : text.length using Nat.strongRecOn generalizing text with
  | _ n ih =>
    cases text with
    | nil => exact ⟨[], [], [], rfl, .nil, .inl rfl⟩
    | cons byte text =>
      by_cases quoted : byte = 0x22 ∨ byte = 0x27
      · by_cases closed : ∃ literal, Literal literal ∧ literal <+: byte :: text
        · obtain ⟨literal, isLiteral, behind, same⟩ := closed
          have nonempty : 0 < literal.length := by
            cases isLiteral
            simp
          have shorter : behind.length < n := by
            rw [← size, ← same, List.length_append]
            omega
          obtain ⟨before, rest, loose, rfl, outside, ends⟩ := ih _ shorter behind rfl
          refine ⟨literal ++ before, rest, loose, ?_, .literal isLiteral outside, ends⟩
          rw [← same, List.append_assoc]
        · refine ⟨[], byte :: text, [], rfl, .nil, .inr ⟨⟨byte, text, rfl, quoted⟩, ?_⟩⟩
          exact fun literal isLiteral starts => closed ⟨literal, isLiteral, starts⟩
      · obtain ⟨before, rest, loose, rfl, outside, ends⟩ :=
          ih text.length (by simp [← size]) text rfl
        exact ⟨byte :: before, rest, byte :: loose, rfl, .byte (not_or.mp quoted) outside, ends⟩

/-! ### Braces -/

/-- No closing brace comes before the open one that it belongs to. -/
def Matched (loose : Bytes) : Prop :=
  ∀ n, (loose.take n).count 0x7D ≤ (loose.take n).count 0x7B

/-- Every brace belongs to another one. -/
structure Balanced (loose : Bytes) : Prop where
  matched : Matched loose
  count : loose.count 0x7B = loose.count 0x7D

theorem Matched.count_le {loose : Bytes} (matched : Matched loose) :
    loose.count 0x7D ≤ loose.count 0x7B := by
  simpa using matched loose.length

theorem Matched.front {front back : Bytes} (matched : Matched (front ++ back)) : Matched front := by
  intro n
  have upTo := matched (min n front.length)
  rw [List.take_append_of_le_length (Nat.min_le_right ..)] at upTo
  rwa [← List.take_eq_take_min] at upTo

theorem Matched.append {front back : Bytes} (matched : Matched front) (behind : Matched back) :
    Matched (front ++ back) := by
  intro n
  have inFront := matched n
  have inBack := behind (n - front.length)
  simp only [List.take_append, List.count_append]
  omega

theorem Matched.opening {loose : Bytes} (matched : Matched loose) : Matched (0x7B :: loose) := by
  intro n
  cases n with
  | zero => simp
  | succ n =>
    have inner := matched n
    simp only [List.take_succ_cons, List.count_cons]
    simp
    omega

theorem balanced_nil : Balanced [] :=
  ⟨fun _ => by simp, rfl⟩

theorem Balanced.append {front back : Bytes} (balanced : Balanced front)
    (behind : Balanced back) : Balanced (front ++ back) where
  matched := balanced.matched.append behind.matched
  count := by rw [List.count_append, List.count_append, balanced.count, behind.count]

theorem balanced_byte {byte : UInt8} (noOpen : byte ≠ 0x7B) (noClose : byte ≠ 0x7D) :
    Balanced [byte] where
  matched n := by cases n <;> simp [noOpen, noClose]
  count := by simp [noOpen, noClose]

/-- What is behind the front of a text adds to the braces that the front leaves open. -/
theorem matched_concat {front : Bytes} {byte : UInt8} (matched : Matched front)
    (count : (front ++ [byte]).count 0x7D ≤ (front ++ [byte]).count 0x7B) :
    Matched (front ++ [byte]) := by
  intro n
  by_cases inFront : n ≤ front.length
  · rw [List.take_append_of_le_length inFront]
    exact matched n
  · rwa [List.take_of_length_le (by simp; omega)]

theorem Balanced.enclosed {inner : Bytes} (balanced : Balanced inner) :
    Balanced (0x7B :: (inner ++ [0x7D])) := by
  have count := balanced.count
  refine ⟨matched_concat balanced.matched.opening ?_, ?_⟩
  all_goals
    simp
    omega

/-- Braces that are not matched have a first closing one to which none belongs. -/
theorem exists_unmatched {loose : Bytes} (unmatched : ¬ Matched loose) :
    ∃ front back, loose = front ++ 0x7D :: back ∧ Balanced front := by
  induction loose using List.reverseRecOn with
  | nil => exact absurd balanced_nil.matched unmatched
  | append_singleton front byte ih =>
    by_cases matched : Matched front
    · -- the last byte is the first closing brace that is too many
      have exceeds : ¬ (front ++ [byte]).count 0x7D ≤ (front ++ [byte]).count 0x7B :=
        fun count => unmatched (matched_concat matched count)
      have atMost := matched.count_le
      simp only [List.count_append, List.count_singleton, beq_iff_eq] at exceeds
      by_cases closing : byte = 0x7D
      · subst closing
        refine ⟨front, [], rfl, matched, ?_⟩
        simp at exceeds
        omega
      · simp only [closing, if_false] at exceeds
        omega
    · obtain ⟨before, back, rfl, balanced⟩ := ih matched
      exact ⟨before, back ++ [byte], by simp, balanced⟩

/-- Braces that are matched, but not all closed, have an innermost one that is open. -/
theorem exists_innermost {loose : Bytes} (matched : Matched loose)
    (more : loose.count 0x7D < loose.count 0x7B) :
    ∃ front back, loose = front ++ 0x7B :: back ∧ Matched front ∧ Balanced back := by
  induction size : loose.length using Nat.strongRecOn generalizing loose with
  | _ n ih =>
    cases loose using List.reverseRecOn with
    | nil => simp at more
    | append_singleton init byte =>
      have isMatched := matched.front
      simp only [List.length_append, List.length_singleton] at size
      by_cases opening : byte = 0x7B
      · subst opening
        exact ⟨init, [], rfl, isMatched, balanced_nil⟩
      have fewer : init.count 0x7D < init.count 0x7B := by
        simp [List.count_singleton, opening] at more
        omega
      obtain ⟨front, back, rfl, before, balanced⟩ := ih init.length (by omega) isMatched fewer rfl
      by_cases closing : byte = 0x7D
      · -- the brace found closes, so one further out is the innermost one
        subst closing
        have count := balanced.count
        have outer : front.count 0x7D < front.count 0x7B := by
          simp at more
          omega
        simp only [List.length_append, List.length_cons] at size
        obtain ⟨first, middle, rfl, isFirst, inner⟩ := ih front.length (by omega) before outer rfl
        refine ⟨first, middle ++ 0x7B :: (back ++ [0x7D]), by simp, isFirst, ?_⟩
        exact inner.append balanced.enclosed
      · exact ⟨front, back ++ [byte], by simp, before,
          balanced.append (balanced_byte opening closing)⟩

/-! ### Faults -/

/-- What is wrong with a script first, as it is read from left to right, and the offset of
that: of the quote of a literal that is not closed, of a closing brace to which no open one
belongs, or, at the end, of the innermost brace that is still open. -/
inductive Offends (script : Bytes) : Nat → Fault → Prop where
  | literal {before rest loose : Bytes} (parts : script = before ++ rest)
      (outside : Outside before loose) (matched : Matched loose) (unclosed : Unclosed rest) :
      Offends script before.length .unterminatedLiteral
  | closing {before rest loose : Bytes} (parts : script = before ++ 0x7D :: rest)
      (outside : Outside before loose) (balanced : Balanced loose) :
      Offends script before.length .unbalancedClose
  | opening {before inner loose others : Bytes} (parts : script = before ++ 0x7B :: inner)
      (outside : Outside before loose) (matched : Matched loose) (behind : Outside inner others)
      (balanced : Balanced others) : Offends script before.length .unbalancedOpen

/-- Some literal of the script is not closed. -/
def HasUnclosed (script : Bytes) : Prop :=
  ∃ before rest loose, script = before ++ rest ∧ Outside before loose ∧ Unclosed rest

/-- All literals of the script are closed, but the braces outside of them do not match. -/
def IsUnbalanced (script : Bytes) : Prop :=
  ∃ loose, Outside script loose ∧ ¬ Balanced loose

theorem offends_of_unmatched {before loose : Bytes} (outside : Outside before loose)
    (unmatched : ¬ Matched loose) (rest : Bytes) :
    ∃ offset fault, Offends (before ++ rest) offset fault := by
  obtain ⟨front, back, rfl, balanced⟩ := exists_unmatched unmatched
  obtain ⟨first, after, rfl, isFront, -⟩ := outside.divide
  exact ⟨_, _, .closing (List.append_assoc ..) isFront balanced⟩

/-- A script has a fault if a literal is not closed or the braces do not match. -/
theorem offends_iff {script : Bytes} :
    (∃ offset fault, Offends script offset fault) ↔ HasUnclosed script ∨ IsUnbalanced script := by
  constructor
  · rintro ⟨_, _, offends⟩
    cases offends with
    | literal parts outside _ unclosed => exact .inl ⟨_, _, _, parts, outside, unclosed⟩
    | @closing before rest loose parts outside balanced =>
      -- whatever follows the brace, no literal in it can make the brace match
      obtain ⟨middle, last, others, rfl, behind, rfl | unclosed⟩ := exists_outside rest
      · have whole : Outside script (loose ++ 0x7D :: others) := by
          rw [parts, List.append_nil]
          exact outside.append (.byte (by decide) behind)
        refine .inr ⟨_, whole, fun all => ?_⟩
        have matched := all.matched
        rw [List.append_cons] at matched
        have upTo := matched.front.count_le
        have count := balanced.count
        simp at upTo
        omega
      · exact .inl ⟨before ++ 0x7D :: middle, last, _, by simp [parts],
          outside.append (.byte (by decide) behind), unclosed⟩
    | @opening before inner loose others parts outside matched behind balanced =>
      have whole : Outside script (loose ++ 0x7B :: others) := by
        rw [parts]
        exact outside.append (.byte (by decide) behind)
      refine .inr ⟨_, whole, fun all => ?_⟩
      have count := all.count
      have atMost := matched.count_le
      have inner := balanced.count
      simp at count
      omega
  · rintro (⟨before, rest, loose, rfl, outside, unclosed⟩ | ⟨loose, outside, unbalanced⟩)
    · by_cases matched : Matched loose
      · exact ⟨_, _, .literal rfl outside matched unclosed⟩
      · exact offends_of_unmatched outside matched rest
    · by_cases matched : Matched loose
      · have more : loose.count 0x7D < loose.count 0x7B :=
          Nat.lt_of_le_of_ne matched.count_le fun same => unbalanced ⟨matched, same.symm⟩
        obtain ⟨front, back, rfl, isMatched, balanced⟩ := exists_innermost matched more
        obtain ⟨before, inner, rfl, isFront, isBack⟩ := outside.divide
        exact ⟨_, _, .opening rfl isFront isMatched isBack balanced⟩
      · have some := offends_of_unmatched outside matched []
        rwa [List.append_nil] at some

theorem offends_or_balanced (script : Bytes) :
    (∃ offset fault, Offends script offset fault) ∨
      ∃ loose, Outside script loose ∧ Balanced loose := by
  obtain ⟨before, rest, loose, same, outside, rfl | unclosed⟩ := exists_outside script
  · rw [List.append_nil] at same
    subst same
    by_cases balanced : Balanced loose
    · exact .inr ⟨loose, outside, balanced⟩
    · exact .inl (offends_iff.mpr (.inr ⟨loose, outside, balanced⟩))
  · exact .inl (offends_iff.mpr (.inl ⟨before, rest, loose, same, outside, unclosed⟩))

/-! ### Cutting -/

theorem isQuote_iff {byte : UInt8} : isQuote byte ↔ byte = 0x22 ∨ byte = 0x27 := by
  rw [isQuote, Bool.or_eq_true, beq_iff_eq, beq_iff_eq]

theorem isQuote_eq_false {byte : UInt8} (noQuote : byte ≠ 0x22 ∧ byte ≠ 0x27) :
    isQuote byte = false := by
  rw [Bool.eq_false_iff, Ne, isQuote_iff]
  exact not_or.mpr noQuote

/-- Behind its quote, a literal is cut at the quote that closes it. -/
theorem cutFrom_body {quote : UInt8} {body : Bytes} (quoted : quote = 0x22 ∨ quote = 0x27)
    (inner : Body quote body) (text rest : Bytes) :
    cutFrom (.inside quote text false) (body ++ quote :: rest) =
      .literal (text.reverse ++ (body ++ [quote])) :: cut rest := by
  induction inner generalizing text with
  | nil => simp [cutFrom, cut]
  | @byte byte body noQuote noBackslash noBreak _ ih =>
    rw [List.cons_append, cutFrom, if_neg noQuote, if_neg noBreak,
      beq_eq_false_iff_ne.mpr noBackslash, ih]
    simp
  | @escape byte body _ ih =>
    have noQuote : (0x5C : UInt8) ≠ quote := by
      rcases quoted with rfl | rfl <;> decide
    rw [List.cons_append, List.cons_append, cutFrom, if_neg noQuote, if_neg (by decide),
      beq_self_eq_true, cutFrom, ih]
    simp

theorem cut_literal {literal : Bytes} (isLiteral : Literal literal) (rest : Bytes) :
    cut (literal ++ rest) = .literal literal :: cut rest := by
  obtain ⟨quoted, inner⟩ := isLiteral
  simp only [cut, List.cons_append, List.append_assoc, cutFrom, isQuote_iff.mpr quoted, if_true]
  exact cutFrom_body quoted inner _ rest

/-- Inside of a literal, the rest closes it or is cut off with it. -/
theorem cutFrom_inside (quote : UInt8) (text rest : Bytes) :
    (∃ body behind, Body quote body ∧ rest = body ++ quote :: behind) ∨
      cutFrom (.inside quote text false) rest = [.unclosed (text.reverse ++ rest)] := by
  induction size : rest.length using Nat.strongRecOn generalizing text rest with
  | _ n ih =>
    cases rest with
    | nil => simp [cutFrom]
    | cons byte rest =>
      simp only [List.length_cons] at size
      by_cases closes : byte = quote
      · exact .inl ⟨[], rest, .nil, by rw [closes]; rfl⟩
      by_cases breaks : byte = Bytes.lineFeed
      · rw [cutFrom, if_neg closes, if_pos breaks]
        exact .inr rfl
      by_cases escapes : byte = 0x5C
      · subst escapes
        -- the backslash takes the next byte along, if there is one
        cases rest with
        | nil => exact .inr (by simp [cutFrom, closes, breaks])
        | cons next rest =>
          obtain ⟨body, behind, inner, rfl⟩ | unclosed :=
            ih rest.length (by simp at size; omega) (next :: 0x5C :: text) rest rfl
          · exact .inl ⟨_, behind, .escape inner, rfl⟩
          · exact .inr (by simp [cutFrom, closes, breaks, unclosed])
      · obtain ⟨body, behind, inner, rfl⟩ | unclosed :=
          ih rest.length (by omega) (byte :: text) rest rfl
        · exact .inl ⟨_, behind, .byte closes escapes breaks inner, rfl⟩
        · rw [cutFrom, if_neg closes, if_neg breaks, beq_eq_false_iff_ne.mpr escapes, unclosed]
          exact .inr (by simp)

theorem cut_unclosed {text : Bytes} (unclosed : Unclosed text) : cut text = [.unclosed text] := by
  obtain ⟨⟨quote, rest, rfl, quoted⟩, never⟩ := unclosed
  obtain ⟨body, behind, inner, rfl⟩ | isUnclosed := cutFrom_inside quote [quote] rest
  · exact absurd ⟨behind, by simp⟩ (never _ (.mk quoted inner))
  · simpa [cut, cutFrom, isQuote_iff.mpr quoted] using isUnclosed

/-! ### Runs of the layout -/

section Runs

variable {state : State}

/-- The layout passes the text in front of the rest, and then these braces are open. -/
def Passes (state : State) (text rest : Bytes) (braces : List Nat) : Prop :=
  ∃ next, linesFrom state (cut (text ++ rest)) = linesFrom next (cut rest) ∧
    next.offset = state.offset + text.length ∧ next.braces = braces

theorem passes_piece (piece : Piece) {rest : Bytes} {next : State}
    (isCut : cut (piece.bytes ++ rest) = piece :: cut rest)
    (passed : state.step piece (cut rest) = .ok next) {braces : List Nat}
    (isBraces : next.braces = braces) : Passes state piece.bytes rest braces := by
  refine ⟨{ next with offset := state.offset + piece.bytes.length }, ?_, rfl, isBraces⟩
  rw [isCut, linesFrom, passed]

theorem cut_mark {byte : UInt8} (noQuote : isQuote byte = false) (noBlank : isBlank byte = false)
    (rest : Bytes) : cut (byte :: rest) = .mark byte :: cut rest :=
  (whole_mark noBlank noQuote).cut_append rest

theorem passes_literal (state : State) {literal : Bytes} (isLiteral : Literal literal)
    (rest : Bytes) :
    Passes state literal rest state.braces :=
  passes_piece (.literal literal) (cut_literal isLiteral rest) rfl rfl

theorem passes_opening (state : State) (rest : Bytes) :
    Passes state [0x7B] rest (state.offset :: state.braces) :=
  passes_piece (.mark 0x7B) (cut_mark rfl rfl rest) rfl rfl

theorem passes_closing {brace : Nat} {braces : List Nat} (isOpen : state.braces = brace :: braces)
    (rest : Bytes) : Passes state [0x7D] rest braces := by
  let closed : State := { state.flush with braces := braces }.add 0x7D
  have passed : state.step (.mark 0x7D) (cut rest) =
      .ok (if continued (cut rest) then closed.space else closed.flush) := by
    simp [State.step, State.mark, Sign.of, isOpen, closed]
  refine passes_piece (.mark 0x7D) (cut_mark rfl rfl rest) passed ?_
  split
  · exact closed.braces_space
  · exact closed.braces_flush

theorem exists_step_byte (state : State) {byte : UInt8} (noOpen : byte ≠ 0x7B)
    (noClose : byte ≠ 0x7D) (pieces : List Piece) :
    ∃ next, state.step (.mark byte) pieces = .ok next ∧ next.braces = state.braces := by
  rw [State.step, State.mark]
  cases sign : Sign.of byte with
  | openBrace | closeBrace => simp [Sign.of, noOpen, noClose, ite_eq_iff] at sign
  | openParen | closeParen | plain => exact ⟨_, rfl, rfl⟩
  | semicolon =>
    refine ⟨_, rfl, ?_⟩
    split
    · exact State.braces_flush _
    · rfl

/-- A byte that is neither a quote nor a brace leaves the open braces as they are. -/
theorem passes_byte {byte : UInt8} (noQuote : isQuote byte = false) (noOpen : byte ≠ 0x7B)
    (noClose : byte ≠ 0x7D) (rest : Bytes) : Passes state [byte] rest state.braces := by
  by_cases blank : isBlank byte
  · exact passes_piece (.blank byte) ((whole_blank blank).cut_append rest) rfl state.braces_space
  · obtain ⟨next, passed, same⟩ := exists_step_byte state noOpen noClose (cut rest)
    exact passes_piece (.mark byte) (cut_mark noQuote (by simpa using blank) rest) passed same

/-- The layout passes a text with its literals closed, as long as no closing brace is too
many. It keeps as many of the text's own braces as are open behind it, in front of those that
were open before. -/
theorem Outside.passes {text loose : Bytes} (outside : Outside text loose) {seen : Bytes}
    {own base : List Nat} (isBraces : state.braces = own ++ base)
    (depth : own.length + seen.count 0x7D = seen.count 0x7B) (matched : Matched (seen ++ loose))
    (rest : Bytes) :
    ∃ left, Passes state text rest (left ++ base) ∧
      left.length + (seen ++ loose).count 0x7D = (seen ++ loose).count 0x7B := by
  induction outside generalizing state seen own with
  | nil => exact ⟨own, ⟨state, rfl, rfl, isBraces⟩, by simpa using depth⟩
  | @literal first text loose isLiteral _ ih =>
    obtain ⟨middle, run, isOffset, same⟩ := passes_literal state isLiteral (text ++ rest)
    obtain ⟨left, ⟨next, run', isOffset', isLeft⟩, count⟩ := ih (same.trans isBraces) depth matched
    refine ⟨left, ⟨next, ?_, ?_, isLeft⟩, count⟩
    · rw [List.append_assoc, run, run']
    · rw [isOffset', isOffset, List.length_append, Nat.add_assoc]
  | @byte byte text loose noQuote _ ih =>
    rw [List.append_cons] at matched ⊢
    have upTo := matched.front.count_le
    -- what the byte does to the braces of the text
    have passed : ∃ next, Passes state [byte] (text ++ rest) (next ++ base) ∧
        next.length + (seen ++ [byte]).count 0x7D = (seen ++ [byte]).count 0x7B := by
      by_cases opening : byte = 0x7B
      · subst opening
        refine ⟨state.offset :: own, ?_, by simp; omega⟩
        rw [List.cons_append, ← isBraces]
        exact passes_opening state _
      by_cases closing : byte = 0x7D
      · subst closing
        cases own with
        | nil =>
          simp at depth upTo
          omega
        | cons brace own => exact ⟨own, passes_closing isBraces _, by simp at depth ⊢; omega⟩
      · refine ⟨own, ?_, by simpa [opening, closing] using depth⟩
        rw [← isBraces]
        exact passes_byte (isQuote_eq_false noQuote) opening closing _
    obtain ⟨middle, ⟨between, run, isOffset, same⟩, depth⟩ := passed
    obtain ⟨left, ⟨next, run', isOffset', isLeft⟩, count⟩ := ih same depth matched
    refine ⟨left, ⟨next, run.trans run', ?_, isLeft⟩, count⟩
    rw [isOffset', isOffset, List.length_singleton, List.length_cons]
    omega

end Runs

/-- From the start, the layout passes a text in which no closing brace is too many. -/
theorem Outside.passes_start {text loose : Bytes} (outside : Outside text loose)
    (matched : Matched loose) (rest : Bytes) :
    ∃ left, Passes {} text rest left ∧ left.length + loose.count 0x7D = loose.count 0x7B := by
  have none : ({} : State).braces = [] ++ [] := rfl
  have depth : ([] : List Nat).length + ([] : Bytes).count 0x7D = ([] : Bytes).count 0x7B := rfl
  obtain ⟨left, passes, count⟩ := outside.passes none depth matched rest
  exact ⟨left, by rwa [List.append_nil] at passes, count⟩

/-- As many braces are open as the text leaves open, so that balanced ones leave none. -/
theorem Balanced.eq_nil {loose : Bytes} {left : List Nat} (balanced : Balanced loose)
    (depth : left.length + loose.count 0x7D = loose.count 0x7B) : left = [] := by
  have count := balanced.count
  exact List.length_eq_zero_iff.mp (by omega)

theorem lines_of_balanced {script loose : Bytes} (outside : Outside script loose)
    (balanced : Balanced loose) : ∃ result, lines script = .ok result := by
  obtain ⟨left, ⟨next, run, -, isLeft⟩, depth⟩ := outside.passes_start balanced.matched []
  rw [List.append_nil] at run
  refine ⟨next.flush.lines.reverse, ?_⟩
  rw [lines, run, cut, cutFrom, linesFrom, State.finish, isLeft, balanced.eq_nil depth]

/-- The layout stops at the first fault of a script. -/
theorem lines_of_offends {script : Bytes} {offset : Nat} {fault : Fault}
    (offends : Offends script offset fault) : lines script = .error (offset, fault) := by
  cases offends with
  | @literal before rest loose parts outside matched unclosed =>
    obtain ⟨left, ⟨next, run, isOffset, -⟩, -⟩ := outside.passes_start matched rest
    rw [lines, parts, run, cut_unclosed unclosed, linesFrom, State.step, isOffset]
    simp
  | @closing before rest loose parts outside balanced =>
    obtain ⟨left, ⟨next, run, isOffset, isLeft⟩, depth⟩ :=
      outside.passes_start balanced.matched (0x7D :: rest)
    rw [lines, parts, run, cut_mark rfl rfl, linesFrom]
    simp [State.step, State.mark, Sign.of, isLeft, balanced.eq_nil depth, isOffset]
  | @opening before inner loose others parts outside matched behind balanced =>
    obtain ⟨left, ⟨middle, run, isOffset, -⟩, -⟩ := outside.passes_start matched (0x7B :: inner)
    obtain ⟨opened, run', -, isOpen⟩ := passes_opening middle inner
    -- behind the brace, the braces are as before, so that it is the innermost one at the end
    have depth : ([] : List Nat).length + ([] : Bytes).count 0x7D = ([] : Bytes).count 0x7B := rfl
    have isBraces : opened.braces = [] ++ (middle.offset :: middle.braces) := isOpen
    obtain ⟨own, ⟨last, run'', -, isLast⟩, depth⟩ :=
      behind.passes isBraces depth balanced.matched []
    rw [List.append_nil] at run''
    rw [lines, parts, run, ← List.singleton_append, run', run'', cut, cutFrom, linesFrom,
      State.finish, isLast, balanced.eq_nil depth]
    simp [isOffset]

theorem lines_eq_error_iff {script : Bytes} {offset : Nat} {fault : Fault} :
    lines script = .error (offset, fault) ↔ Offends script offset fault := by
  refine ⟨fun failed => ?_, lines_of_offends⟩
  obtain ⟨_, _, offends⟩ | ⟨loose, outside, balanced⟩ := offends_or_balanced script
  · obtain ⟨rfl, rfl⟩ :=
      Prod.mk.inj (Except.error.inj ((lines_of_offends offends).symm.trans failed))
    exact offends
  · obtain ⟨result, laid⟩ := lines_of_balanced outside balanced
    cases laid.symm.trans failed

/-! ### Errors -/

theorem format_of_first_zero {before after : Bytes} (nonzero : 0 ∉ before) :
    format (before ++ 0 :: after) = .error (.zeroByte before.length) := by
  have absent : before.findIdx? (· == 0) = none :=
    List.findIdx?_eq_none_iff.mpr fun byte mem =>
      beq_eq_false_iff_ne.mpr fun same => nonzero (same ▸ mem)
  have isFirst : (before ++ 0 :: after).idxOf? 0 = some before.length := by
    simp [List.idxOf?, List.findIdx?_append, absent, List.findIdx?_cons]
  rw [format, isFirst]

/-- Without a zero byte, what is reported is the fault of the lines. -/
theorem format_eq_error_iff {script : Bytes} (nonzero : 0 ∉ script) {error : Error} :
    format script = .error error ↔
      ∃ offset fault, lines script = .error (offset, fault) ∧
        error = .faultAt (Bytes.lineColumn (script.take offset)).1
          (Bytes.lineColumn (script.take offset)).2 fault := by
  rw [format, List.idxOf?_eq_none_iff.mpr nonzero]
  cases laid : lines script with
  | ok result => simp
  | error found => simp [Prod.ext_iff, and_assoc, eq_comm]

theorem format_eq_zeroByte_iff {script : Bytes} {offset : Nat} :
    format script = .error (.zeroByte offset) ↔
      ∃ before after, script = before ++ 0 :: after ∧ 0 ∉ before ∧ offset = before.length := by
  constructor
  · intro failed
    by_cases zero : 0 ∈ script
    · obtain ⟨before, after, rfl, nonzero⟩ := List.eq_append_cons_of_mem zero
      rw [format_of_first_zero nonzero] at failed
      exact ⟨before, after, rfl, nonzero, (Error.zeroByte.inj (Except.error.inj failed)).symm⟩
    · obtain ⟨_, _, -, other⟩ := (format_eq_error_iff zero).mp failed
      cases other
  · rintro ⟨before, after, rfl, nonzero, rfl⟩
    exact format_of_first_zero nonzero

theorem format_eq_faultAt_iff {script : Bytes} {line column : Nat} {fault : Fault} :
    format script = .error (.faultAt line column fault) ↔
      0 ∉ script ∧ ∃ offset, Offends script offset fault ∧
        Bytes.StandsAt (script.take offset) line column := by
  constructor
  · intro failed
    by_cases zero : 0 ∈ script
    · obtain ⟨before, after, rfl, nonzero⟩ := List.eq_append_cons_of_mem zero
      cases (format_of_first_zero nonzero).symm.trans failed
    · obtain ⟨offset, _, laid, same⟩ := (format_eq_error_iff zero).mp failed
      obtain ⟨rfl, rfl, rfl⟩ := Error.faultAt.inj same
      exact ⟨zero, offset, lines_eq_error_iff.mp laid, Bytes.standsAt_iff.mpr rfl⟩
  · rintro ⟨nonzero, offset, offends, stands⟩
    refine (format_eq_error_iff nonzero).mpr ⟨offset, fault, lines_of_offends offends, ?_⟩
    rw [Bytes.lineColumn_of_standsAt stands]

/-- The layout fails exactly for a zero byte, a literal that is not closed, or braces that do
not match. It reports the offset of the first zero byte; if there is none, it reports the
first fault alone, by its line and column. -/
theorem format_fails_exactly (script : Bytes) :
    ((∃ error, format script = .error error) ↔
      0 ∈ script ∨ HasUnclosed script ∨ IsUnbalanced script) ∧
    (∀ offset, format script = .error (.zeroByte offset) ↔
      ∃ before after, script = before ++ 0 :: after ∧ 0 ∉ before ∧ offset = before.length) ∧
    ∀ line column fault, format script = .error (.faultAt line column fault) ↔
      0 ∉ script ∧ ∃ offset, Offends script offset fault ∧
        Bytes.StandsAt (script.take offset) line column := by
  refine ⟨⟨?_, ?_⟩, fun _ => format_eq_zeroByte_iff, fun _ _ _ => format_eq_faultAt_iff⟩
  · rintro ⟨error, failed⟩
    cases error with
    | zeroByte offset =>
      obtain ⟨before, after, rfl, -⟩ := format_eq_zeroByte_iff.mp failed
      exact .inl (by simp)
    | faultAt line column fault =>
      obtain ⟨-, offset, offends, -⟩ := format_eq_faultAt_iff.mp failed
      exact .inr (offends_iff.mp ⟨offset, fault, offends⟩)
  · intro faulty
    by_cases zero : 0 ∈ script
    · obtain ⟨before, after, rfl, nonzero⟩ := List.eq_append_cons_of_mem zero
      exact ⟨_, format_of_first_zero nonzero⟩
    · obtain ⟨offset, fault, offends⟩ := offends_iff.mpr (faulty.resolve_left zero)
      obtain ⟨line, column, stands⟩ := Bytes.exists_standsAt (script.take offset)
      exact ⟨_, format_eq_faultAt_iff.mpr ⟨zero, offset, offends, stands⟩⟩

/-- A backslash at the end of a text takes nothing along, and the literal stays open. -/
example : format (.ofString "x;\nf(\"a\\") = .error (.faultAt 2 3 .unterminatedLiteral) := by
  decide +kernel

end Layout

end PascalCompiler
