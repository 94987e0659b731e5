import PascalCompiler.Proofs.Layout.Rendering

/-!
# Scripts that can be laid out

A script is orderly if its literals are closed, its parentheses and braces match, and there
are braces and semicolons outside of parentheses only. Such a script can be laid out, and
then every semicolon in it ends a line.

## Main definitions

* `Layout.Orderly`: orderly pieces of a script
* `Layout.EndsLines`: all semicolons are at the ends of lines
* `Layout.Tidy`: what is written so far has its semicolons at the ends of lines

## Main results

* `Layout.Orderly.run`: the layout passes orderly pieces and is where it was before
* `Layout.format_of_orderly`: an orderly script can be laid out
* `Layout.format_of_zero`: a script with a zero byte is refused
-/

namespace PascalCompiler.Layout

open Piece

/-! ### Orderly pieces -/

/-- Where pieces can stand: a phrase can stand in parentheses, a passage only outside. -/
inductive Shape where
  | phrase
  | passage

/-- Is the piece none that the layout takes for a sign? -/
def Piece.isPlain : Piece → Bool
  | .blank _ | .literal _ => true
  | .mark byte => Sign.of byte = .plain
  | .unclosed _ => false

/-- Pieces with matching parentheses and braces. In parentheses there are neither braces nor
semicolons. -/
inductive Orderly : Shape → List Piece → Prop where
  | nil {shape : Shape} : Orderly shape []
  | plain {shape : Shape} {piece : Piece} (whole : piece.Whole) (isPlain : piece.isPlain) :
      Orderly shape [piece]
  | append {shape : Shape} {first second : List Piece} (front : Orderly shape first)
      (back : Orderly shape second) : Orderly shape (first ++ second)
  | parens {shape : Shape} {inner : List Piece} (orderly : Orderly .phrase inner) :
      Orderly shape (.mark 0x28 :: (inner ++ [.mark 0x29]))
  | semicolon : Orderly .passage [.mark 0x3B]
  | braces {inner : List Piece} (orderly : Orderly .passage inner) :
      Orderly .passage (.mark 0x7B :: (inner ++ [.mark 0x7D]))

theorem Orderly.whole {shape : Shape} {pieces : List Piece} (orderly : Orderly shape pieces) :
    ∀ piece ∈ pieces, piece.Whole := by
  induction orderly with
  | nil => nofun
  | plain whole _ => exact List.forall_mem_singleton.mpr whole
  | append _ _ front back => exact List.forall_mem_append.mpr ⟨front, back⟩
  | semicolon => exact List.forall_mem_singleton.mpr (whole_mark rfl rfl)
  | parens _ ih | braces _ ih =>
    refine List.forall_mem_cons.mpr ⟨whole_mark rfl rfl, ?_⟩
    exact List.forall_mem_append.mpr ⟨ih, List.forall_mem_singleton.mpr (whole_mark rfl rfl)⟩

/-! ### Semicolons at the ends of lines -/

/-- Behind every semicolon the line ends. Semicolons in literals are not pieces of their own. -/
def EndsLines (pieces : List Piece) : Prop :=
  ∀ before after, pieces = before ++ .mark 0x3B :: after → ∃ rest, after = .blank 0x0A :: rest

theorem EndsLines.append {first second : List Piece} (front : EndsLines first)
    (back : EndsLines second) : EndsLines (first ++ second) := by
  intro before after same
  rcases List.append_eq_append_iff.mp same with ⟨middle, rfl, isSecond⟩ | ⟨middle, isFirst, isAfter⟩
  · exact back middle after isSecond
  · cases middle with
    | nil => exact back [] after isAfter.symm
    | cons piece middle =>
      -- the semicolon is among the first pieces, and so is what is behind it
      obtain ⟨rfl, rfl⟩ := List.cons.inj isAfter
      obtain ⟨rest, rfl⟩ := front before middle isFirst
      exact ⟨rest ++ second, rfl⟩

theorem endsLines_of_not_mem {pieces : List Piece} (none : .mark 0x3B ∉ pieces) :
    EndsLines pieces := by
  rintro before after rfl
  exact absurd (by simp) none

/-- A finished line can have a semicolon at its end. -/
theorem endsLines_linePieces (depth : Nat) {kept : List Piece} (none : .mark 0x3B ∉ kept.tail) :
    EndsLines (linePieces depth kept) := by
  cases kept with
  | nil => exact endsLines_of_not_mem (by simp [linePieces])
  | cons last kept =>
    have split : linePieces depth (last :: kept) =
        List.replicate depth (.blank 0x09) ++ kept.reverse ++ [last, .blank 0x0A] := by
      simp [linePieces]
    rw [split]
    refine .append (endsLines_of_not_mem (by simpa using none)) fun before after same => ?_
    rcases before with - | ⟨first, - | ⟨second, before⟩⟩
    · exact ⟨[], (List.cons.inj same).2.symm⟩
    · simp at same
    · simp at same

/-- The semicolons that are written stand at the ends of lines. -/
def Tidy (state : State) : Prop :=
  ∃ done line, Written state done line ∧ EndsLines done ∧ .mark 0x3B ∉ line

/-- A line can be ended if it has no semicolon but at its end. -/
theorem Written.tidy_flush {state : State} {done line : List Piece}
    (written : Written state done line) (ends : EndsLines done)
    (none : .mark 0x3B ∉ line.tail) : Tidy state.flush := by
  obtain ⟨spaces, kept, rfl, -, -, flushed⟩ := written.flush
  have noneKept : .mark 0x3B ∉ kept.tail := by
    cases spaces with
    | nil => exact none
    | cons space spaces =>
      intro mem
      exact none (List.mem_append_right spaces (List.mem_of_mem_tail mem))
  refine ⟨_, [], flushed, ends.append ?_, List.not_mem_nil⟩
  split
  · exact endsLines_of_not_mem List.not_mem_nil
  · exact endsLines_linePieces _ noneKept

namespace Tidy

variable {state : State}

theorem start : Tidy {} :=
  ⟨[], [], ⟨nofun, nofun, rfl, rfl, rfl⟩, endsLines_of_not_mem nofun, nofun⟩

/-- What is written does not depend on the braces and parentheses. -/
theorem congr {other : State} (tidy : Tidy state) (sameLine : other.line = state.line)
    (sameLines : other.lines = state.lines) : Tidy other := by
  obtain ⟨done, line, ⟨whole, inline, isDone, isLine, isApart⟩, rest⟩ := tidy
  exact ⟨done, line, ⟨whole, inline, sameLines ▸ isDone, sameLine.trans isLine, isApart⟩, rest⟩

/-- A piece other than a semicolon is added to the line. -/
theorem add {piece : Piece} (tidy : Tidy state) (inline : piece.Inline)
    (other : piece ≠ .mark 0x3B) :
    Tidy { state with line := piece.bytes.reverse ++ state.line } := by
  obtain ⟨done, line, written, ends, none⟩ := tidy
  refine ⟨done, piece :: line, written.add inline, ends, ?_⟩
  rintro (_ | ⟨_, mem⟩)
  · exact other rfl
  · exact none mem

theorem mark {byte : UInt8} (tidy : Tidy state) (whole : (Piece.mark byte).Whole)
    (other : byte ≠ 0x3B) : Tidy (state.add byte) :=
  tidy.add ⟨whole, nofun⟩ fun same => other (Piece.mark.inj same)

theorem space (tidy : Tidy state) : Tidy state.space := by
  unfold State.space
  split
  · exact tidy
  · split
    · exact tidy
    · exact tidy.add inline_space nofun

theorem flush (tidy : Tidy state) : Tidy state.flush := by
  obtain ⟨done, line, written, ends, none⟩ := tidy
  exact written.tidy_flush ends fun mem => none (List.mem_of_mem_tail mem)

/-- A semicolon outside of parentheses ends the line. -/
theorem semicolon (tidy : Tidy state) : Tidy (state.add 0x3B).flush := by
  obtain ⟨done, line, written, ends, none⟩ := tidy
  have isInline : (Piece.mark 0x3B).Inline := ⟨whole_mark rfl rfl, nofun⟩
  exact (written.add isInline).tidy_flush ends none

end Tidy

/-! ### Runs of the layout -/

theorem linesFrom_cons {state next : State} {piece : Piece} {rest : List Piece}
    (passed : state.step piece rest = .ok next) :
    linesFrom state (piece :: rest) =
      linesFrom { next with offset := state.offset + piece.bytes.length } rest := by
  rw [linesFrom, passed]

/-- A plain piece is added to the line. -/
theorem exists_step_plain {state : State} {piece : Piece} (rest : List Piece) (whole : piece.Whole)
    (isPlain : piece.isPlain) (tidy : Tidy state) :
    ∃ next, state.step piece rest = .ok next ∧ next.braces = state.braces ∧
      next.parens = state.parens ∧ Tidy next := by
  cases piece with
  | blank byte => exact ⟨_, rfl, state.braces_space, state.parens_space, tidy.space⟩
  | literal text => exact ⟨_, rfl, rfl, rfl, tidy.add ⟨whole, nofun⟩ nofun⟩
  | mark byte =>
    have isPlain : Sign.of byte = .plain := by simpa [Piece.isPlain] using isPlain
    refine ⟨state.add byte, by simp [State.step, State.mark, isPlain], rfl, rfl,
      tidy.mark whole ?_⟩
    rintro rfl
    cases isPlain
  | unclosed text => cases isPlain

/-- The layout passes orderly pieces. Behind them it is inside of the same parentheses and
braces as in front of them. -/
theorem Orderly.run {shape : Shape} {pieces : List Piece} (orderly : Orderly shape pieces)
    {state : State} (rest : List Piece) (tidy : Tidy state)
    (outside : shape = .passage → state.parens = 0) :
    ∃ next, linesFrom state (pieces ++ rest) = linesFrom next rest ∧
      next.braces = state.braces ∧ next.parens = state.parens ∧ Tidy next := by
  -- what is behind the pieces stays open, so that the parts of a script can be put together
  induction orderly generalizing state rest with
  | nil => exact ⟨state, rfl, rfl, rfl, tidy⟩
  | @plain shape piece whole isPlain =>
    obtain ⟨next, passed, sameBraces, sameParens, tidy⟩ :=
      exists_step_plain rest whole isPlain tidy
    exact ⟨_, linesFrom_cons passed, sameBraces, sameParens, tidy.congr rfl rfl⟩
  | @append shape first second _ _ front back =>
    obtain ⟨middle, run, sameBraces, sameParens, tidy⟩ := front (second ++ rest) tidy outside
    obtain ⟨next, run', sameBraces', sameParens', tidy⟩ :=
      back rest tidy fun isPassage => sameParens.trans (outside isPassage)
    rw [List.append_assoc, run, run']
    exact ⟨next, rfl, sameBraces'.trans sameBraces, sameParens'.trans sameParens, tidy⟩
  | @parens shape inner _ ih =>
    have opened : Tidy { state.add 0x28 with
        parens := state.parens + 1, offset := state.offset + 1 } :=
      (tidy.mark (whole_mark rfl rfl) (by decide)).congr rfl rfl
    obtain ⟨middle, run, sameBraces, sameParens, tidy⟩ := ih (.mark 0x29 :: rest) opened nofun
    refine ⟨{ middle.add 0x29 with parens := middle.parens - 1, offset := middle.offset + 1 }, ?_,
      sameBraces, ?_, (tidy.mark (whole_mark rfl rfl) (by decide)).congr rfl rfl⟩
    · rw [List.cons_append, List.append_assoc]
      exact run
    · exact congrArg (· - 1) sameParens
  | semicolon =>
    have passed : state.step (.mark 0x3B) rest = .ok (state.add 0x3B).flush := by
      simp [State.step, State.mark, Sign.of, outside rfl]
    exact ⟨_, linesFrom_cons passed, State.braces_flush _, State.parens_flush _,
      tidy.semicolon.congr rfl rfl⟩
  | @braces inner _ ih =>
    -- both braces end a line, and between them the inner pieces are passed
    let opened : State := (state.space.add 0x7B).flush
    have isOpened : Tidy { opened with
        braces := state.offset :: state.braces, offset := state.offset + 1 } :=
      (tidy.space.mark (whole_mark rfl rfl) (by decide)).flush.congr rfl rfl
    have sameParens : opened.parens = state.parens :=
      (State.parens_flush _).trans state.parens_space
    obtain ⟨middle, run, isBraces, sameParens', tidy⟩ :=
      ih (.mark 0x7D :: rest) isOpened fun _ => sameParens.trans (outside rfl)
    let closed : State := { middle.flush with braces := state.braces }.add 0x7D
    have isClosed : Tidy closed :=
      Tidy.mark (tidy.flush.congr rfl rfl) (whole_mark rfl rfl) (by decide)
    have closedParens : closed.parens = state.parens :=
      middle.parens_flush.trans (sameParens'.trans sameParens)
    have passed : middle.step (.mark 0x7D) rest =
        .ok (if continued rest then closed.space else closed.flush) := by
      simp [State.step, State.mark, Sign.of, isBraces, closed]
    rw [List.cons_append, List.append_assoc]
    refine ⟨_, run.trans (linesFrom_cons passed), ?_⟩
    -- only what continues the statement goes on the same line
    split
    · exact ⟨closed.braces_space, closed.parens_space.trans closedParens,
        isClosed.space.congr rfl rfl⟩
    · exact ⟨closed.braces_flush, closed.parens_flush.trans closedParens,
        isClosed.flush.congr rfl rfl⟩

theorem State.finish_of_tidy {state : State} (outside : state.braces = []) (tidy : Tidy state) :
    ∃ result, state.finish = .ok result ∧ EndsLines (cut (result.flatMap Line.render)) := by
  refine ⟨state.flush.lines.reverse, by rw [State.finish, outside], ?_⟩
  obtain ⟨done, line, written, ends, -⟩ := tidy.flush
  rw [written.lines_eq, cut_flatMap_bytes written.whole]
  exact ends

/-- An orderly script without zero bytes can be laid out. Its semicolons then are at the
ends of lines. -/
theorem format_of_orderly {script : Bytes} {pieces : List Piece} (orderly : Orderly .passage pieces)
    (isScript : script = pieces.flatMap bytes) (nonzero : 0 ∉ script) :
    ∃ result, format script = .ok result ∧ EndsLines (cut result) := by
  have areCut : cut script = pieces := isScript ▸ cut_flatMap_bytes orderly.whole
  obtain ⟨last, run, outside, -, tidy⟩ := orderly.run [] Tidy.start fun _ => rfl
  obtain ⟨result, finished, ends⟩ := last.finish_of_tidy outside tidy
  refine ⟨_, format_eq_ok_iff.mpr ⟨nonzero, result, ?_, rfl⟩, ends⟩
  rw [lines, areCut, ← List.append_nil pieces, run]
  exact finished

/-- A script with a zero byte is refused for it. -/
theorem format_of_zero {script : Bytes} (zero : 0 ∈ script) :
    ∃ offset, format script = .error (.zeroByte offset) := by
  obtain ⟨offset, isOffset⟩ := Option.isSome_iff_exists.mp (List.isSome_idxOf?.mpr zero)
  exact ⟨offset, by rw [format, isOffset]⟩

end PascalCompiler.Layout
