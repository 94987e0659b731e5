import PascalCompiler.Proofs.Layout.Rendering

/-!
# The lines of a laid-out script

A text is divided into lines at the line feeds outside of literals. In a laid-out script
the lines show its structure: a line is indented by the braces that are open in front of
it, and braces and semicolons stand at the ends of lines where they have to.

While a script is laid out, three things are kept apart: the offsets of the open braces,
the line that is begun, and the finished lines. They stay in step. The open braces are
those of the finished lines, less one if the line begins with a closing brace, and a line
that is begun has nothing in it that ends a line.

## Main definitions

* `Piece.openBraces`: the number of braces that are open behind pieces
* `divide`: the lines of a text
* `LaidOut`: a line as it has to be behind the pieces in front of it
* `Arranged`: the finished lines are laid out, and the state is in step with them

## Main results

* `Arranged.mark`, `Arranged.linesFrom`: what a step keeps, and what a run keeps
* `format_lays_out_lines`: the lines of a laid-out script are laid out
-/

namespace PascalCompiler.Layout

open Piece

/-! ### Lines of a text -/

namespace Piece

/-- The number of open braces behind a piece. A closing one without an open one counts for
nothing. -/
def nest (depth : Nat) : Piece → Nat
  | .mark 0x7B => depth + 1
  | .mark 0x7D => depth - 1
  | _ => depth

/-- The number of open braces behind the pieces. -/
def openBraces (pieces : List Piece) : Nat :=
  pieces.foldl nest 0

/-- The bytes of the pieces. -/
def textOf (pieces : List Piece) : Bytes :=
  pieces.flatMap bytes

end Piece

/-- The lines of a text, which is divided at the line feeds outside of literals. The last
one has no line feed behind it. -/
def divide (text : Bytes) : List (List Piece) :=
  (cut text).splitOn (.blank Bytes.lineFeed)

/-- The pieces of lines with a line feed behind each. -/
def joined (lines : List (List Piece)) : List Piece :=
  lines.flatMap (· ++ [.blank Bytes.lineFeed])

/-- The line is as it has to be behind the pieces in front of it. -/
structure LaidOut (before line : List Piece) : Prop where
  nonempty : textOf line ≠ []
  noSpace : (textOf line).getLast? ≠ some 0x20
  /-- There is a tab for every open brace, but for the one that the line begins to close. -/
  indent : ((textOf line).takeWhile (· == 0x09)).length +
    (if ((textOf line).dropWhile (· == 0x09)).head? = some 0x7D then 1 else 0) = openBraces before
  openLast : ∀ front back, line = front ++ .mark 0x7B :: back → back = []
  closeFirst : ∀ front back, line = front ++ .mark 0x7D :: back →
    ∀ piece ∈ front, piece = .blank 0x09
  semicolonLast : ∀ front back, line = front ++ .mark 0x3B :: back →
    depth (before ++ front) = 0 → back = []

/-- A member of a list with one more element is the last one or a member of the list. -/
theorem concat_eq_append_cons {α : Type} {list front back : List α} {last member : α}
    (same : list ++ [last] = front ++ member :: back) :
    (list = front ∧ last = member ∧ back = []) ∨
      ∃ middle, list = front ++ member :: middle ∧ back = middle ++ [last] := by
  rcases List.eq_nil_or_concat back with rfl | ⟨middle, last', rfl⟩
  · obtain ⟨rfl, isLast⟩ := List.append_inj' same rfl
    exact .inl ⟨rfl, (List.cons.inj isLast).1, rfl⟩
  · right
    rw [List.concat_eq_append, ← List.cons_append, ← List.append_assoc] at same
    obtain ⟨rfl, isLast⟩ := List.append_inj' same rfl
    exact ⟨middle, rfl, by rw [List.concat_eq_append, isLast]⟩

/-- An indentation is blank. -/
theorem solids_tabs (tabs : Nat) : solids (List.replicate tabs (Piece.blank 0x09)) = [] := by
  simp [solids, isSolid]

section Counts

variable {count : Nat → Piece → Nat} (keeps : ∀ depth byte, count depth (.blank byte) = depth)

include keeps

/-- Blanks open and close nothing. -/
theorem foldl_blanks {blanks : List Piece} (areBlanks : solids blanks = []) (depth : Nat) :
    blanks.foldl count depth = depth := by
  induction blanks with
  | nil => rfl
  | cons blank blanks ih =>
    obtain ⟨isBlank, others⟩ := solids_cons_eq_nil.mp areBlanks
    obtain ⟨byte, rfl⟩ := exists_eq_blank isBlank
    rw [List.foldl_cons, keeps, ih others]

theorem foldl_linePieces (tabs depth : Nat) (kept : List Piece) :
    (linePieces tabs kept).foldl count depth = kept.reverse.foldl count depth := by
  rw [linePieces, List.foldl_append, List.foldl_append, foldl_blanks keeps (solids_tabs tabs),
    List.foldl_cons, List.foldl_nil, keeps]

end Counts

theorem depth_append (front back : List Piece) :
    depth (front ++ back) = back.foldl deepen (depth front) :=
  List.foldl_append

theorem openBraces_append (front back : List Piece) :
    openBraces (front ++ back) = back.foldl nest (openBraces front) :=
  List.foldl_append

theorem nest_of_noBrace {piece : Piece} (noBrace : piece.isBrace = false) (depth : Nat) :
    nest depth piece = depth := by
  unfold nest
  split
  · cases noBrace
  · cases noBrace
  · rfl

theorem foldl_nest_of_noBrace {pieces : List Piece}
    (noBrace : ∀ piece ∈ pieces, piece.isBrace = false) (depth : Nat) :
    pieces.foldl nest depth = depth := by
  induction pieces with
  | nil => rfl
  | cons piece pieces ih =>
    obtain ⟨first, others⟩ := List.forall_mem_cons.mp noBrace
    rw [List.foldl_cons, nest_of_noBrace first, ih others]

theorem textOf_reverse (pieces : List Piece) :
    textOf pieces.reverse = (pieces.flatMap (·.bytes.reverse)).reverse := by
  simp [textOf, List.reverse_flatMap, Function.comp_def]

theorem joined_concat (lines : List (List Piece)) (line : List Piece) :
    joined (lines ++ [line]) = joined lines ++ (line ++ [.blank Bytes.lineFeed]) := by
  simp [joined]

/-! ### The pieces of a line -/

/-- The number of braces that the pieces of a line close at once. -/
def closers (line : List Piece) : Nat :=
  if line.head? = some (.mark 0x7D) then 1 else 0

theorem closers_append {line : List Piece} (nonempty : line ≠ []) (more : List Piece) :
    closers (line ++ more) = closers line := by
  obtain ⟨first, others, rfl⟩ := List.exists_cons_of_ne_nil nonempty
  rfl

/-- The pieces of a line that can go on: there is nothing among them that ends a line, and a
closing brace only in front. -/
structure Begins (before line : List Piece) : Prop where
  noOpen : .mark 0x7B ∉ line
  closeFirst : ∀ front back, line = front ++ .mark 0x7D :: back → front = []
  guarded : ∀ front back, line = front ++ .mark 0x3B :: back → depth (before ++ front) ≠ 0

/-- The pieces of a line that can be ended: what ends a line is the last of them, and a
closing brace the first. -/
structure Fits (before line : List Piece) : Prop where
  openLast : ∀ front back, line = front ++ .mark 0x7B :: back → back = []
  closeFirst : ∀ front back, line = front ++ .mark 0x7D :: back → front = []
  semicolonLast : ∀ front back, line = front ++ .mark 0x3B :: back →
    depth (before ++ front) = 0 → back = []

namespace Begins

variable {before line : List Piece} {piece : Piece}

theorem nil : Begins before [] where
  noOpen := List.not_mem_nil
  closeFirst _ _ same := by simp at same
  guarded _ _ same := by simp at same

/-- A line that begins with a closing brace. -/
theorem close : Begins before [.mark 0x7D] where
  noOpen := by simp
  closeFirst front back same := by
    cases front with
    | nil => rfl
    | cons first front => simp at same
  guarded front back same := by
    cases front with
    | nil => simp at same
    | cons first front => simp at same

/-- The line goes on with a piece that does not end it. -/
theorem concat (begins : Begins before line) (noBrace : piece.isBrace = false)
    (guarded : piece = .mark 0x3B → depth (before ++ line) ≠ 0) :
    Begins before (line ++ [piece]) where
  noOpen mem := by
    rcases List.mem_append.mp mem with mem | isLast
    · exact begins.noOpen mem
    · rw [← List.mem_singleton.mp isLast] at noBrace
      cases noBrace
  closeFirst front back same := by
    rcases concat_eq_append_cons same with ⟨-, rfl, -⟩ | ⟨middle, isLine, -⟩
    · cases noBrace
    · exact begins.closeFirst front middle isLine
  guarded front back same := by
    rcases concat_eq_append_cons same with ⟨rfl, isLast, -⟩ | ⟨middle, isLine, -⟩
    · exact guarded isLast
    · exact begins.guarded front middle isLine

theorem fits (begins : Begins before line) : Fits before line where
  openLast front back same := absurd (by simp [same]) begins.noOpen
  closeFirst := begins.closeFirst
  semicolonLast front back same outside := absurd outside (begins.guarded front back same)

/-- The line is ended with a piece. -/
theorem fits_concat (begins : Begins before line) (other : piece ≠ .mark 0x7D) :
    Fits before (line ++ [piece]) where
  openLast front back same := by
    rcases concat_eq_append_cons same with ⟨-, -, isBack⟩ | ⟨middle, isLine, -⟩
    · exact isBack
    · exact absurd (by simp [isLine]) begins.noOpen
  closeFirst front back same := by
    rcases concat_eq_append_cons same with ⟨-, isLast, -⟩ | ⟨middle, isLine, -⟩
    · exact absurd isLast other
    · exact begins.closeFirst front middle isLine
  semicolonLast front back same outside := by
    rcases concat_eq_append_cons same with ⟨-, -, isBack⟩ | ⟨middle, isLine, -⟩
    · exact isBack
    · exact absurd outside (begins.guarded front middle isLine)

/-- Behind the line that is begun, the braces are open that it does not close. -/
theorem openBraces_eq (begins : Begins before line) {depth : Nat}
    (indent : depth + closers line = openBraces before) : openBraces (before ++ line) = depth := by
  rw [openBraces_append, ← indent]
  cases line with
  | nil => rfl
  | cons first others =>
    -- only the first piece can be a brace
    have noBrace : ∀ piece ∈ others, piece.isBrace = false := by
      intro piece mem
      rw [Piece.isBrace, Bool.or_eq_false_iff, beq_eq_false_iff_ne, beq_eq_false_iff_ne]
      constructor
      · rintro rfl
        exact begins.noOpen (List.mem_cons_of_mem first mem)
      · rintro rfl
        obtain ⟨front, back, rfl⟩ := List.append_of_mem mem
        exact List.cons_ne_nil first front (begins.closeFirst (first :: front) back rfl)
    rw [List.foldl_cons, foldl_nest_of_noBrace noBrace]
    by_cases isClose : first = .mark 0x7D
    · subst isClose
      rfl
    · have noOpen : first ≠ .mark 0x7B := by
        rintro rfl
        exact begins.noOpen List.mem_cons_self
      rw [nest_of_noBrace (by simp [Piece.isBrace, isClose, noOpen])]
      simp [closers, isClose]

end Begins

/-- A line can be ended earlier. -/
theorem Fits.of_append {before line more : List Piece} (fits : Fits before (line ++ more)) :
    Fits before line where
  openLast front back same := by
    have none := fits.openLast front (back ++ more) (by simp [same])
    exact (List.append_eq_nil_iff.mp none).1
  closeFirst front back same := fits.closeFirst front (back ++ more) (by simp [same])
  semicolonLast front back same outside := by
    have none := fits.semicolonLast front (back ++ more) (by simp [same]) outside
    exact (List.append_eq_nil_iff.mp none).1

theorem inline_mark {byte : UInt8} (whole : (Piece.mark byte).Whole) : (Piece.mark byte).Inline :=
  ⟨whole, fun noBlank => by cases noBlank⟩

/-- The first byte of a piece tells whether it is a tab or a closing brace. -/
theorem Piece.Whole.exists_first {piece : Piece} (whole : piece.Whole) :
    ∃ first rest, piece.bytes = first :: rest ∧ (first = 0x09 → piece = .blank 0x09) ∧
      (first = 0x7D ↔ piece = .mark 0x7D) := by
  obtain ⟨start, last, ends, -⟩ := whole.ends
  obtain ⟨first, rest, isBytes⟩ := List.exists_cons_of_ne_nil
    (ends ▸ List.append_ne_nil_of_right_ne_nil start (List.cons_ne_nil last []))
  -- cutting sees the first byte before it sees anything else
  have again := whole.cut_append []
  rw [isBytes] at again
  refine ⟨first, rest, isBytes, ?_, ?_, ?_⟩
  · rintro rfl
    exact (List.cons.inj again).1.symm
  · rintro rfl
    exact (List.cons.inj again).1.symm
  · rintro rfl
    exact (List.cons.inj isBytes).1.symm

/-- A mark in an indented line is one of the line. -/
theorem exists_of_indented {tabs : Nat} {byte : UInt8} {line front back : List Piece}
    (same : List.replicate tabs (.blank 0x09) ++ line = front ++ .mark byte :: back) :
    ∃ inner, front = List.replicate tabs (.blank 0x09) ++ inner ∧
      line = inner ++ .mark byte :: back := by
  rcases List.append_eq_append_iff.mp same with ⟨inner, isFront, isLine⟩ | ⟨inner, isTabs, isBack⟩
  · exact ⟨inner, isFront, isLine⟩
  · cases inner with
    | nil => exact ⟨[], by simpa using isTabs.symm, isBack.symm⟩
    | cons tab inner =>
      obtain ⟨rfl, -⟩ := List.cons.inj isBack
      have isTab : Piece.mark byte = .blank 0x09 :=
        List.eq_of_mem_replicate (isTabs ▸ List.mem_append_right front List.mem_cons_self)
      cases isTab

/-- A line that fits is laid out when it is indented by the open braces that it does not
close. -/
theorem Fits.laidOut {before line : List Piece} {tabs : Nat} (fits : Fits before line)
    (inline : ∀ piece ∈ line, piece.Inline) (nonempty : line ≠ [])
    (noSpace : (textOf line).getLast? ≠ some 0x20)
    (indent : tabs + closers line = openBraces before) :
    LaidOut before (List.replicate tabs (.blank 0x09) ++ line) := by
  obtain ⟨piece, others, rfl⟩ := List.exists_cons_of_ne_nil nonempty
  have isInline := inline piece List.mem_cons_self
  obtain ⟨first, rest, isBytes, noTab, isClose⟩ := isInline.exists_first
  have noTab : first ≠ 0x09 := by
    intro isTab
    have isPiece := noTab isTab
    have isSpace := isInline.eq_space (by rw [isPiece, isSolid])
    rw [isPiece] at isSpace
    cases isSpace
  have isText : textOf (List.replicate tabs (.blank 0x09) ++ piece :: others) =
      List.replicate tabs 0x09 ++ first :: (rest ++ textOf others) := by
    simp [textOf, isBytes, bytes_blank, List.flatMap_replicate]
  constructor
  · rw [isText]
    exact List.append_ne_nil_of_right_ne_nil _ (List.cons_ne_nil first _)
  · have isLine : textOf (piece :: others) = first :: (rest ++ textOf others) := by
      simp [textOf, isBytes]
    rw [isText, List.getLast?_append, List.getLast?_cons, Option.some_or, ← List.getLast?_cons,
      ← isLine]
    exact noSpace
  · rw [isText, List.takeWhile_append_of_pos (by simp), List.dropWhile_append_of_pos (by simp),
      List.takeWhile_cons_of_neg (by simpa using noTab),
      List.dropWhile_cons_of_neg (by simpa using noTab), List.append_nil, List.length_replicate,
      List.head?_cons, ← indent, closers, List.head?_cons]
    simp only [Option.some_inj, isClose]
  · intro front back same
    obtain ⟨inner, -, isLine⟩ := exists_of_indented same
    exact fits.openLast inner back isLine
  · intro front back same other mem
    obtain ⟨inner, rfl, isLine⟩ := exists_of_indented same
    rw [fits.closeFirst inner back isLine, List.append_nil] at mem
    exact List.eq_of_mem_replicate mem
  · intro front back same outside
    obtain ⟨inner, rfl, isLine⟩ := exists_of_indented same
    rw [depth_append, List.foldl_append, foldl_blanks (fun _ _ => rfl) (solids_tabs tabs),
      ← depth_append] at outside
    exact fits.semicolonLast inner back isLine outside

/-! ### Lines in step with the state -/

/-- The lines are laid out, and none of them goes over a line feed. -/
structure Finished (lines : List (List Piece)) : Prop where
  laidOut : ∀ before line after, lines = before ++ line :: after → LaidOut (joined before) line
  noFeed : ∀ line ∈ lines, .blank Bytes.lineFeed ∉ line

theorem Finished.concat {lines : List (List Piece)} {line : List Piece} (finished : Finished lines)
    (laidOut : LaidOut (joined lines) line) (noFeed : .blank Bytes.lineFeed ∉ line) :
    Finished (lines ++ [line]) where
  laidOut before other after same := by
    rcases concat_eq_append_cons same with ⟨rfl, rfl, -⟩ | ⟨middle, isLines, -⟩
    · exact laidOut
    · exact finished.laidOut before other middle isLines
  noFeed := List.forall_mem_append.mpr ⟨finished.noFeed, List.forall_mem_singleton.mpr noFeed⟩

/-- A line that fits is ended. The braces and parentheses are open that are open behind it. -/
theorem Written.exists_finished {state : State} {lines : List (List Piece)} {line : List Piece}
    (written : Written state (joined lines) line) (finished : Finished lines)
    (fits : Fits (joined lines) line.reverse)
    (indent : state.braces.length + closers line.reverse = openBraces (joined lines)) :
    ∃ more, Written state.flush (joined more) [] ∧ Finished more ∧
      ∀ count : Nat → Piece → Nat, (∀ depth byte, count depth (.blank byte) = depth) →
        (joined more).foldl count 0 = (joined lines ++ line.reverse).foldl count 0 := by
  obtain ⟨spaces, kept, rfl, areSpaces, noSpace, flushed⟩ := written.flush
  have dropped : ∀ {count : Nat → Piece → Nat},
      (∀ depth byte, count depth (.blank byte) = depth) → ∀ depth,
      (spaces ++ kept).reverse.foldl count depth = kept.reverse.foldl count depth := by
    intro count keeps depth
    rw [List.reverse_append, List.foldl_append, foldl_blanks keeps areSpaces]
  cases kept with
  | nil =>
    -- there were only spaces in the line, and the lines stay as they are
    rw [if_pos rfl, List.append_nil] at flushed
    refine ⟨lines, flushed, finished, fun count keeps => ?_⟩
    rw [List.foldl_append, dropped keeps]
    rfl
  | cons last kept =>
    rw [if_neg (List.cons_ne_nil last kept)] at flushed
    have isLine : joined (lines ++ [List.replicate state.braces.length (.blank 0x09) ++
        (last :: kept).reverse]) =
          joined lines ++ linePieces state.braces.length (last :: kept) := by
      rw [joined_concat, linePieces, List.append_assoc]
      rfl
    have inline : ∀ piece ∈ (last :: kept).reverse, piece.Inline := by
      intro piece mem
      exact written.inline piece (List.mem_append_right spaces (List.mem_reverse.mp mem))
    rw [List.reverse_append] at fits indent
    refine ⟨_, isLine ▸ flushed, finished.concat (fits.of_append.laidOut inline ?_ ?_ ?_) ?_,
      fun count keeps => ?_⟩
    · simp
    · rw [textOf_reverse, List.getLast?_reverse]
      exact noSpace
    · rw [closers_append (List.reverse_ne_nil_iff.mpr (List.cons_ne_nil last kept))] at indent
      exact indent
    · intro mem
      rcases List.mem_append.mp mem with isTab | isPiece
      · cases List.eq_of_mem_replicate isTab
      · cases (inline _ isPiece).eq_space rfl
    · rw [isLine, List.foldl_append, foldl_linePieces keeps, List.foldl_append, dropped keeps]

/-- The lines are finished, a line is begun with the pieces that are given latest first,
and braces and parentheses are counted as they are open. -/
structure Arranged (state : State) (lines : List (List Piece)) (line : List Piece) : Prop where
  written : Written state (joined lines) line
  finished : Finished lines
  begins : Begins (joined lines) line.reverse
  indent : state.braces.length + closers line.reverse = openBraces (joined lines)
  parens : state.parens = depth (joined lines ++ line.reverse)

namespace Arranged

variable {state next : State} {lines : List (List Piece)} {line : List Piece} {piece : Piece}

theorem start : Arranged {} [] [] where
  written := ⟨List.forall_mem_nil _, List.forall_mem_nil _, rfl, rfl, rfl⟩
  finished := ⟨fun _ _ _ same => by simp at same, List.forall_mem_nil _⟩
  begins := .nil
  indent := rfl
  parens := rfl

/-- Where the layout stands in the script does not matter. -/
theorem moved (arranged : Arranged state lines line) (offset : Nat) :
    Arranged { state with offset := offset } lines line := by
  obtain ⟨⟨whole, inline, isDone, isLine, isApart⟩, finished, begins, indent, parens⟩ := arranged
  exact ⟨⟨whole, inline, isDone, isLine, isApart⟩, finished, begins, indent, parens⟩

theorem closers_concat (noBrace : piece ≠ .mark 0x7D) :
    closers (line.reverse ++ [piece]) = closers line.reverse := by
  by_cases empty : line.reverse = []
  · simp [empty, closers, noBrace]
  · exact closers_append empty [piece]

/-- The line goes on with a piece that does not end it. -/
theorem add (arranged : Arranged state lines line) (inline : piece.Inline)
    (noBrace : piece.isBrace = false) (guarded : piece = .mark 0x3B → state.parens ≠ 0) :
    Arranged { state with
      line := piece.bytes.reverse ++ state.line
      parens := deepen state.parens piece } lines (piece :: line) := by
  have other : piece ≠ .mark 0x7D := by
    rintro rfl
    cases noBrace
  obtain ⟨whole, inline, isDone, isLine, isApart⟩ := arranged.written.add inline
  refine ⟨⟨whole, inline, isDone, isLine, isApart⟩, arranged.finished, ?_, ?_, ?_⟩
  · rw [List.reverse_cons]
    exact arranged.begins.concat noBrace (arranged.parens ▸ guarded)
  · rw [List.reverse_cons, closers_concat other]
    exact arranged.indent
  · rw [List.reverse_cons, ← List.append_assoc, depth_append, ← arranged.parens]
    rfl

/-- A space is added to the line, or none is needed. -/
theorem space (arranged : Arranged state lines line) :
    ∃ line, Arranged state.space lines line := by
  unfold State.space
  split
  · exact ⟨line, arranged⟩
  · split
    · exact ⟨line, arranged⟩
    · exact ⟨_, arranged.add inline_space rfl fun same => by cases same⟩

/-- The line is ended. -/
theorem flush (arranged : Arranged state lines line) :
    ∃ more, Arranged state.flush more [] := by
  obtain ⟨more, written, finished, counts⟩ :=
    arranged.written.exists_finished arranged.finished arranged.begins.fits arranged.indent
  refine ⟨more, written, finished, .nil, ?_, ?_⟩
  · rw [state.braces_flush, openBraces, counts nest fun _ _ => rfl]
    exact (arranged.begins.openBraces_eq arranged.indent).symm
  · rw [state.parens_flush, arranged.parens, List.reverse_nil, List.append_nil]
    exact (counts deepen fun _ _ => rfl).symm

/-- The line is ended with a piece. -/
theorem flush_concat (arranged : Arranged state lines line) (inline : piece.Inline)
    (other : piece ≠ .mark 0x7D) :
    ∃ more,
      Written { state with line := piece.bytes.reverse ++ state.line }.flush (joined more) [] ∧
      Finished more ∧ openBraces (joined more) = nest state.braces.length piece ∧
      depth (joined more) = deepen state.parens piece := by
  have isReverse : (piece :: line).reverse = line.reverse ++ [piece] := List.reverse_cons
  have fits : Fits (joined lines) (piece :: line).reverse :=
    isReverse ▸ arranged.begins.fits_concat other
  have indent : state.braces.length + closers (piece :: line).reverse =
      openBraces (joined lines) := by
    rw [isReverse, closers_concat other, arranged.indent]
  obtain ⟨more, written, finished, counts⟩ :=
    (arranged.written.add inline).exists_finished arranged.finished fits indent
  refine ⟨more, written, finished, ?_, ?_⟩
  · rw [openBraces, counts nest fun _ _ => rfl, isReverse, ← List.append_assoc, ← openBraces,
      openBraces_append, arranged.begins.openBraces_eq arranged.indent]
    rfl
  · rw [depth, counts deepen fun _ _ => rfl, isReverse, ← List.append_assoc, ← depth,
      depth_append, ← arranged.parens]
    rfl

/-- The line is ended with a semicolon. -/
theorem semicolon (arranged : Arranged state lines line) :
    ∃ more, Arranged (state.add 0x3B).flush more [] := by
  obtain ⟨more, written, finished, areOpen, isDepth⟩ :=
    arranged.flush_concat (inline_mark (whole_mark rfl rfl : (Piece.mark 0x3B).Whole)) (by simp)
  refine ⟨more, written, finished, .nil, ?_, ?_⟩
  · rw [State.braces_flush, areOpen]
    rfl
  · rw [State.parens_flush, List.reverse_nil, List.append_nil, isDepth]
    rfl

/-- An opening brace ends the line and is open from then on. -/
theorem openBrace (arranged : Arranged state lines line) :
    ∃ more, Arranged { (state.space.add 0x7B).flush with
      braces := state.offset :: state.braces } more [] := by
  obtain ⟨spaced, isSpaced⟩ := arranged.space
  obtain ⟨more, ⟨whole, inline, isDone, isLine, isApart⟩, finished, areOpen, isDepth⟩ :=
    isSpaced.flush_concat (inline_mark (whole_mark rfl rfl : (Piece.mark 0x7B).Whole)) (by simp)
  refine ⟨more, ⟨whole, inline, isDone, isLine, isApart⟩, finished, .nil, ?_, ?_⟩
  · rw [areOpen, state.braces_space]
    rfl
  · rw [List.reverse_nil, List.append_nil, isDepth]
    exact State.parens_flush _

/-- A closing brace begins a line, and a brace less is open from then on. -/
theorem closeBrace (arranged : Arranged state lines line) {offset : Nat} {braces : List Nat}
    (isBraces : state.braces = offset :: braces) :
    ∃ more, Arranged ({ state.flush with braces := braces }.add 0x7D) more [.mark 0x7D] := by
  obtain ⟨more, ⟨written, finished, -, indent, parens⟩⟩ := arranged.flush
  obtain ⟨whole, inline, isDone, isLine, isApart⟩ :=
    written.add (inline_mark (whole_mark rfl rfl : (Piece.mark 0x7D).Whole))
  refine ⟨more, ⟨whole, inline, isDone, isLine, isApart⟩, finished, .close, ?_, ?_⟩
  · rw [← indent, state.braces_flush, isBraces]
    rfl
  · refine parens.trans ?_
    rw [depth_append, depth_append]
    rfl

/-- Passing a byte keeps the lines in step with the state. -/
theorem mark {byte : UInt8} {rest : List Piece} (arranged : Arranged state lines line)
    (whole : (Piece.mark byte).Whole) (passed : state.mark byte rest = .ok next) :
    ∃ more line, Arranged next more line := by
  have isInline := inline_mark whole
  cases byte using sign_cases with
  | openParen | closeParen =>
    cases passed
    exact ⟨lines, _, arranged.add isInline rfl fun same => by cases same⟩
  | semicolon =>
    by_cases outside : state.parens = 0
    · obtain rfl : (state.add 0x3B).flush = next := by
        simpa [State.mark, Sign.of, outside] using passed
      obtain ⟨more, ended⟩ := arranged.semicolon
      exact ⟨more, [], ended⟩
    · obtain rfl : state.add 0x3B = next := by
        simpa [State.mark, Sign.of, outside] using passed
      exact ⟨lines, _, arranged.add isInline rfl fun _ => outside⟩
  | openBrace =>
    cases passed
    obtain ⟨more, opened⟩ := arranged.openBrace
    exact ⟨more, [], opened⟩
  | closeBrace =>
    cases isBraces : state.braces with
    | nil => simp [State.mark, Sign.of, isBraces] at passed
    | cons offset braces =>
      obtain ⟨more, closed⟩ := arranged.closeBrace isBraces
      by_cases isContinued : continued rest
      · obtain rfl : ({ state.flush with braces := braces }.add 0x7D).space = next := by
          simpa [State.mark, Sign.of, isBraces, isContinued] using passed
        obtain ⟨line, spaced⟩ := closed.space
        exact ⟨more, line, spaced⟩
      · obtain rfl : ({ state.flush with braces := braces }.add 0x7D).flush = next := by
          simpa [State.mark, Sign.of, isBraces, isContinued] using passed
        obtain ⟨more, ended⟩ := closed.flush
        exact ⟨more, [], ended⟩
  | plain byte isPlain noBrace isPass =>
    obtain rfl : state.add byte = next := by simpa [State.mark, isPlain] using passed
    have sameDepth : deepen state.parens (.mark byte) = state.parens :=
      congrArg Front.depth (isPass ⟨state.parens, false⟩)
    have added := arranged.add isInline noBrace (by
      intro isSemicolon
      obtain rfl := Piece.mark.inj isSemicolon
      cases isPlain)
    rw [sameDepth] at added
    exact ⟨lines, _, added⟩

/-- Passing a piece keeps the lines in step with the state. -/
theorem step {rest : List Piece} (arranged : Arranged state lines line) (whole : piece.Whole)
    (passed : state.step piece rest = .ok next) : ∃ more line, Arranged next more line := by
  cases piece with
  | blank byte =>
    cases passed
    obtain ⟨line, spaced⟩ := arranged.space
    exact ⟨lines, line, spaced⟩
  | literal text =>
    cases passed
    exact ⟨lines, _, arranged.add ⟨whole, fun noBlank => by cases noBlank⟩ rfl
      fun same => by cases same⟩
  | mark byte => exact arranged.mark whole passed
  | unclosed text => cases passed

/-- The lines of the rest of the pieces are laid out behind the finished ones. -/
theorem linesFrom {pieces : List Piece} {result : List Line} (arranged : Arranged state lines line)
    (whole : ∀ piece ∈ pieces, piece.Whole ∨ ∃ text, piece = .unclosed text)
    (laid : Layout.linesFrom state pieces = .ok result) :
    ∃ more, Finished more ∧ (∀ piece ∈ joined more, piece.Whole) ∧
      result.flatMap Line.render = textOf (joined more) := by
  induction pieces generalizing state lines line with
  | nil =>
    obtain rfl : state.flush.lines.reverse = result := by
      cases isBraces : state.braces <;> simp_all [Layout.linesFrom, State.finish]
    obtain ⟨more, ended⟩ := arranged.flush
    exact ⟨more, ended.finished, ended.written.whole, ended.written.lines_eq⟩
  | cons piece pieces ih =>
    obtain ⟨first, others⟩ := List.forall_mem_cons.mp whole
    rw [Layout.linesFrom] at laid
    cases passed : state.step piece pieces with
    | error fault => simp [passed] at laid
    | ok next =>
      rw [passed] at laid
      obtain ⟨more, line, stepped⟩ := arranged.step (whole_of_step first passed) passed
      exact ih (stepped.moved (state.offset + piece.bytes.length)) others laid

end Arranged

/-! ### Laid-out scripts -/

/-- Lines with a line feed behind each are found again. -/
theorem splitOn_joined {lines : List (List Piece)}
    (noFeed : ∀ line ∈ lines, .blank Bytes.lineFeed ∉ line) :
    (joined lines).splitOn (.blank Bytes.lineFeed) = lines ++ [[]] := by
  induction lines with
  | nil => rfl
  | cons line lines ih =>
    obtain ⟨first, others⟩ := List.forall_mem_cons.mp noFeed
    have isJoined : joined (line :: lines) = line ++ .blank Bytes.lineFeed :: joined lines := by
      simp [joined]
    rw [isJoined, List.splitOn_append_cons_self_of_not_mem first, ih others, List.cons_append]

theorem getLast?_textOf_joined (lines : List (List Piece)) :
    textOf (joined lines) = [] ∨ (textOf (joined lines)).getLast? = some Bytes.lineFeed := by
  rcases List.eq_nil_or_concat lines with rfl | ⟨front, last, rfl⟩
  · exact .inl rfl
  · right
    rw [List.concat_eq_append, joined_concat, ← List.append_assoc, textOf, List.flatMap_append]
    exact List.getLast?_concat

/-- A laid-out script is empty or ends in a line feed. Each of its lines is not empty, does
not end in a space, and is indented by a tab for every brace that is open in front of it, but
for the one that it begins to close. An opening brace ends its line, a closing one begins it
behind the tabs, and a semicolon outside of parentheses ends it. -/
theorem format_lays_out_lines {script text : Bytes} (formatted : format script = .ok text) :
    (text = [] ∨ text.getLast? = some Bytes.lineFeed) ∧
      ∃ lines, divide text = lines ++ [[]] ∧
        ∀ before line after, lines = before ++ line :: after → LaidOut (joined before) line := by
  obtain ⟨-, result, laid, rfl⟩ := format_eq_ok_iff.mp formatted
  obtain ⟨lines, finished, whole, isText⟩ := Arranged.start.linesFrom whole_of_mem_cut laid
  rw [isText]
  refine ⟨getLast?_textOf_joined lines, lines, ?_, finished.laidOut⟩
  rw [divide, Piece.textOf, cut_flatMap_bytes whole, splitOn_joined finished.noFeed]

/-- The line of the closing brace is not indented, although a brace is open in front of it. -/
theorem format_lays_out_guardedScript :
    format guardedScript = .ok guardedText ∧
      ∃ lines, divide guardedText = lines ++ [[]] ∧
        lines.map textOf = [.ofString "if (a;b) \x7b", .ofString "\tx=\"\x7b ;\"",
          .ofString "\x7d else y"] ∧
        LaidOut (joined (lines.take 2)) (cut (.ofString "\x7d else y")) ∧
        openBraces (joined (lines.take 2)) = 1 := by
  have formatted : format guardedScript = .ok guardedText := rfl
  obtain ⟨-, lines, isDivided, laidOut⟩ := format_lays_out_lines formatted
  have areLines : lines = [cut (.ofString "if (a;b) \x7b"), cut (.ofString "\tx=\"\x7b ;\""),
      cut (.ofString "\x7d else y")] :=
    List.append_cancel_right (isDivided.symm.trans (by decide +kernel) :
      lines ++ [[]] = [cut (.ofString "if (a;b) \x7b"), cut (.ofString "\tx=\"\x7b ;\""),
        cut (.ofString "\x7d else y")] ++ [[]])
  refine ⟨formatted, lines, isDivided, ?_, ?_, ?_⟩
  · rw [areLines]
    rfl
  · exact laidOut _ _ [] (by rw [areLines]; rfl)
  · rw [areLines]
    rfl

end PascalCompiler.Layout
