import PascalCompiler.Proofs.Layout.Spacing

/-!
# What a laid-out script shows

The layout puts blanks in and leaves blanks out, in front of lines, at their ends and
between the pieces of a line. What is written so far is followed through these
changes: the solid pieces in their places, and whether blanks stand at the end. In the
end the solid pieces of the script are there, in settled places.

To say so of the bytes of the result, these have to be cut into the pieces again
that were written. All pieces that a script is cut into can be, in front of whatever
follows, except for a literal that is not closed.

## Main definitions

* `Piece.Whole`: a piece that can be cut again
* `Shows`: what the layout has written

## Main results

* `Shows.step_solid`, `Shows.linesFrom`: what a step writes, and what a run writes
* `placed_of_format`: a laid-out script has its solid pieces in settled places
* `format_keeps_pieces`: what stands between neighbours before and after the layout
-/

namespace PascalCompiler.Layout

open Piece

/-! ### Pieces that can be cut again -/

/-- The piece is what is cut from a script that starts with its bytes, and these end in
a space only if the piece is one. -/
structure Piece.Whole (piece : Piece) : Prop where
  cut_append : ∀ rest, cut (piece.bytes ++ rest) = piece :: cut rest
  ends : ∃ start last, piece.bytes = start ++ [last] ∧ (last = 0x20 → piece = .blank 0x20)

/-- The piece can stand in a line, where the only blanks are spaces. -/
structure Piece.Inline (piece : Piece) : Prop extends piece.Whole where
  eq_space : piece.isSolid = false → piece = .blank 0x20

/-- Cutting is at the state behind the bytes that it keeps. -/
def Piece.State.Reached (state : Piece.State) : Prop :=
  (∀ rest, cut (state.pending ++ rest) = cutFrom state rest) ∧
    match state with
    | .outside => True
    | .inside quote _ _ => isQuote quote

theorem bytes_blank (byte : UInt8) : (Piece.blank byte).bytes = [byte] := rfl

theorem whole_blank {byte : UInt8} (isBlank : Piece.isBlank byte) : (Piece.blank byte).Whole where
  cut_append rest := by
    have noQuote : isQuote byte = false := by
      simp only [Piece.isBlank, isQuote] at *
      grind
    simp [cut, bytes, cutFrom, isBlank, noQuote]
  ends := ⟨[], byte, rfl, congrArg Piece.blank⟩

theorem whole_mark {byte : UInt8} (noBlank : Piece.isBlank byte = false)
    (noQuote : isQuote byte = false) : (Piece.mark byte).Whole where
  cut_append rest := by simp [cut, bytes, cutFrom, noBlank, noQuote]
  ends := by
    refine ⟨[], byte, rfl, fun isSpace => ?_⟩
    simp [Piece.isBlank, isSpace] at noBlank

/-- All pieces of a script can be cut again, except for a literal that is not closed. -/
theorem whole_of_mem_cutFrom {state : Piece.State} {script : Bytes} (reached : state.Reached) :
    ∀ piece ∈ cutFrom state script, piece.Whole ∨ ∃ text, piece = .unclosed text := by
  fun_induction cutFrom state script with
  | case1 => exact List.forall_mem_nil _
  | case2 byte rest quote ih =>
    refine ih ⟨fun rest => ?_, quote⟩
    simp [cut, State.pending, cutFrom, quote]
  | case3 byte rest noQuote isBlank ih =>
    exact List.forall_mem_cons.mpr ⟨.inl (whole_blank isBlank), ih ⟨fun _ => rfl, trivial⟩⟩
  | case4 byte rest noQuote noBlank ih =>
    refine List.forall_mem_cons.mpr ⟨.inl ?_, ih ⟨fun _ => rfl, trivial⟩⟩
    exact whole_mark (by simpa using noBlank) (by simpa using noQuote)
  | case5 => simp
  | case6 quote text byte rest ih =>
    refine ih ⟨fun rest => ?_, reached.2⟩
    simpa [State.pending, cutFrom] using reached.1 (byte :: rest)
  | case7 text quote rest ih =>
    refine List.forall_mem_cons.mpr ⟨.inl ⟨fun rest => ?_, ?_⟩, ih ⟨fun _ => rfl, trivial⟩⟩
    · simpa [State.pending, cutFrom, bytes, cut] using reached.1 (quote :: rest)
    · -- the last byte of a literal is its quote
      refine ⟨text.reverse, quote, by simp [bytes], fun isSpace => ?_⟩
      have isQuote := reached.2
      simp [Piece.isQuote, isSpace] at isQuote
  | case8 => simp
  | case9 quote text byte rest noQuote noEnd ih =>
    refine ih ⟨fun rest => ?_, reached.2⟩
    simpa [State.pending, cutFrom, noQuote, noEnd] using reached.1 (byte :: rest)

theorem whole_of_mem_cut {script : Bytes} :
    ∀ piece ∈ cut script, piece.Whole ∨ ∃ text, piece = .unclosed text :=
  whole_of_mem_cutFrom ⟨fun _ => rfl, trivial⟩

/-- Pieces that can be cut again are those of their bytes. -/
theorem cut_flatMap_bytes {pieces : List Piece} (whole : ∀ piece ∈ pieces, piece.Whole) :
    cut (pieces.flatMap bytes) = pieces := by
  induction pieces with
  | nil => rfl
  | cons piece pieces ih =>
    obtain ⟨first, others⟩ := List.forall_mem_cons.mp whole
    rw [List.flatMap_cons, first.cut_append, ih others]

/-! ### States of the layout -/

namespace State

variable (state : State)

theorem space_eq : state.space = { state with line := state.space.line } := by
  unfold space
  split
  · rfl
  · split <;> rfl

theorem parens_space : state.space.parens = state.parens := by
  rw [state.space_eq]

theorem braces_space : state.space.braces = state.braces := by
  rw [state.space_eq]

theorem parens_flush : state.flush.parens = state.parens := by
  unfold flush
  split <;> rfl

theorem braces_flush : state.flush.braces = state.braces := by
  unfold flush
  split <;> rfl

theorem line_flush : state.flush.line = [] := by
  unfold flush
  split <;> rfl

theorem lines_flush {text : Bytes} (isText : state.line.dropWhile (· == 0x20) = text) :
    state.flush.lines =
      if text = [] then state.lines else ⟨state.braces.length, text.reverse⟩ :: state.lines := by
  cases text <;> simp [flush, isText]

end State

/-! ### Pieces of a line -/

theorem inline_space : (Piece.blank 0x20).Inline :=
  ⟨whole_blank rfl, fun _ => rfl⟩

/-- A line ends in a space only if its last piece is one. -/
theorem exists_last {piece : Piece} (whole : piece.Whole) (line : List Piece) :
    ∃ last rest, (piece :: line).flatMap (·.bytes.reverse) = last :: rest ∧
      (last = 0x20 → piece = .blank 0x20) := by
  obtain ⟨start, last, same, isSpace⟩ := whole.ends
  exact ⟨last, start.reverse ++ line.flatMap (·.bytes.reverse), by simp [same], isSpace⟩

/-- The spaces at the end of a line are pieces of their own. -/
theorem exists_kept {line : List Piece} (inline : ∀ piece ∈ line, piece.Inline) :
    ∃ spaces kept, line = spaces ++ kept ∧ solids spaces.reverse = [] ∧
      (line.flatMap (·.bytes.reverse)).dropWhile (· == 0x20) = kept.flatMap (·.bytes.reverse) := by
  induction line with
  | nil => exact ⟨[], [], rfl, rfl, rfl⟩
  | cons piece line ih =>
    obtain ⟨first, others⟩ := List.forall_mem_cons.mp inline
    obtain ⟨last, rest, isLast, isSpace⟩ := exists_last first.toWhole line
    by_cases space : last = 0x20
    · obtain rfl := isSpace space
      obtain ⟨spaces, kept, rfl, areSpaces, isKept⟩ := ih others
      refine ⟨.blank 0x20 :: spaces, kept, rfl, ?_, isKept⟩
      simp_all [solids, isSolid]
    · exact ⟨[], piece :: line, rfl, rfl, by simp [isLast, space]⟩

/-- The pieces of a finished line: tabs, the pieces that are given latest first, and a
line feed. -/
def linePieces (depth : Nat) (kept : List Piece) : List Piece :=
  List.replicate depth (.blank 0x09) ++ (kept.reverse ++ [.blank 0x0A])

section LinePieces

variable (depth : Nat) (kept : List Piece)

theorem flatMap_bytes_linePieces :
    (linePieces depth kept).flatMap bytes =
      Line.render ⟨depth, (kept.flatMap (·.bytes.reverse)).reverse⟩ := by
  simp [linePieces, Line.render, bytes_blank, List.reverse_flatMap, List.flatMap_replicate,
    Bytes.lineFeed, Function.comp_def]

theorem whole_of_mem_linePieces {kept : List Piece} (inline : ∀ piece ∈ kept, piece.Inline) :
    ∀ piece ∈ linePieces depth kept, piece.Whole := by
  intro piece mem
  simp only [linePieces, List.mem_append, List.mem_reverse, List.mem_singleton] at mem
  rcases mem with mem | mem | rfl
  · exact List.eq_of_mem_replicate mem ▸ whole_blank rfl
  · exact (inline piece mem).toWhole
  · exact whole_blank rfl

/-- Behind blanks, the tabs of a line do not show. -/
theorem placed_linePieces : placed true (linePieces depth kept) = placed true kept.reverse := by
  have areTabs : solids (List.replicate depth (Piece.blank 0x09)) = [] := by
    simp [solids, isSolid]
  have isFeed : solids [Piece.blank 0x0A] = [] := rfl
  rw [linePieces, placed_append, placed_blanks areTabs, apartAfter_blanks areTabs, Bool.true_or,
    placed_append, placed_blanks isFeed, List.nil_append, List.append_nil]

theorem apartAfter_linePieces (done : List Piece) :
    apartAfter true (done ++ linePieces depth kept) = true := by
  simp [linePieces, apartAfter, isSolid]

end LinePieces

/-! ### What the layout has written -/

/-- The layout has written the pieces of the finished lines, and those of the line that
is begun, latest first. -/
structure Written (state : State) (done line : List Piece) : Prop where
  whole : ∀ piece ∈ done, piece.Whole
  inline : ∀ piece ∈ line, piece.Inline
  lines_eq : state.lines.reverse.flatMap Line.render = done.flatMap bytes
  line_eq : state.line = line.flatMap (·.bytes.reverse)
  apart : apartAfter true done = true

/-- The layout has written the places, and `apart` tells whether blanks stand at the
end. -/
def Shows (state : State) (shown : List Placed) (apart : Bool) : Prop :=
  ∃ done line, Written state done line ∧ placed true (done ++ line.reverse) = shown ∧
    apartAfter true (done ++ line.reverse) = apart

/-- The next piece of the line is written. -/
theorem Written.add {state : State} {done line : List Piece} (written : Written state done line)
    {piece : Piece} (isInline : piece.Inline) :
    Written { state with line := piece.bytes.reverse ++ state.line } done (piece :: line) where
  whole := written.whole
  inline := List.forall_mem_cons.mpr ⟨isInline, written.inline⟩
  lines_eq := written.lines_eq
  line_eq := by rw [written.line_eq, List.flatMap_cons]
  apart := written.apart

/-- The line is ended. Its spaces at the end are lost, and all of it if there is nothing
else in it. -/
theorem Written.flush {state : State} {done line : List Piece} (written : Written state done line) :
    ∃ spaces kept, line = spaces ++ kept ∧ solids spaces.reverse = [] ∧
      (kept.flatMap (·.bytes.reverse)).head? ≠ some 0x20 ∧
      Written state.flush
        (done ++ if kept = [] then [] else linePieces state.braces.length kept) [] := by
  obtain ⟨spaces, kept, rfl, areSpaces, isKept⟩ := exists_kept written.inline
  have noSpace : (kept.flatMap (·.bytes.reverse)).head? ≠ some 0x20 := by
    rw [← isKept]
    intro isSpace
    have stops := List.head?_dropWhile_not (· == (0x20 : UInt8))
      ((spaces ++ kept).flatMap (·.bytes.reverse))
    rw [isSpace] at stops
    cases stops
  refine ⟨spaces, kept, rfl, areSpaces, noSpace, ?_⟩
  have isLines := state.lines_flush (by rw [written.line_eq, isKept])
  cases kept with
  | nil =>
    rw [if_pos rfl, List.append_nil]
    refine ⟨written.whole, nofun, ?_, state.line_flush, written.apart⟩
    rw [isLines, List.flatMap_nil, if_pos rfl, written.lines_eq]
  | cons piece kept =>
    have inline : ∀ other ∈ piece :: kept, other.Inline := fun other mem =>
      written.inline other (List.mem_append_right spaces mem)
    have nonempty : (piece :: kept).flatMap (·.bytes.reverse) ≠ [] := by
      obtain ⟨last, rest, isLast, -⟩ := exists_last (inline piece List.mem_cons_self).toWhole kept
      simp [isLast]
    rw [if_neg nonempty] at isLines
    rw [if_neg (List.cons_ne_nil _ _)]
    refine ⟨?_, nofun, ?_, state.line_flush, apartAfter_linePieces _ _ done⟩
    · exact List.forall_mem_append.mpr ⟨written.whole, whole_of_mem_linePieces _ inline⟩
    · rw [isLines, List.reverse_cons, List.flatMap_append, List.flatMap_append, written.lines_eq,
        flatMap_bytes_linePieces, List.flatMap_singleton]

namespace Shows

variable {state : State} {shown : List Placed} {apart : Bool}

theorem start : Shows {} [] true :=
  ⟨[], [], ⟨nofun, nofun, rfl, rfl, rfl⟩, rfl, rfl⟩

/-- What is written does not depend on the braces and parentheses. -/
theorem congr {other : State} (shows : Shows state shown apart) (sameLine : other.line = state.line)
    (sameLines : other.lines = state.lines) : Shows other shown apart := by
  obtain ⟨done, line, ⟨whole, inline, isDone, isLine, isApart⟩, rest⟩ := shows
  exact ⟨done, line, ⟨whole, inline, sameLines ▸ isDone, sameLine.trans isLine, isApart⟩, rest⟩

/-- A solid piece is written. -/
theorem solid {piece : Piece} (shows : Shows state shown apart) (whole : piece.Whole)
    (isSolid : piece.isSolid) :
    Shows { state with line := piece.bytes.reverse ++ state.line } (shown ++ [⟨apart, piece⟩])
      false := by
  obtain ⟨done, line, written, rfl, rfl⟩ := shows
  refine ⟨done, piece :: line, written.add ⟨whole, by simp [isSolid]⟩, ?_, ?_⟩
  · rw [List.reverse_cons, ← List.append_assoc, placed_solid _ _ _ isSolid]
    rfl
  · rw [List.reverse_cons, ← List.append_assoc, apartAfter_concat, isSolid, Bool.not_true]

theorem mark {byte : UInt8} (shows : Shows state shown apart) (whole : (Piece.mark byte).Whole) :
    Shows (state.add byte) (shown ++ [⟨apart, .mark byte⟩]) false :=
  shows.solid whole rfl

/-- Where blanks stand at the end, no space is added. -/
theorem space_eq (shows : Shows state shown true) : state.space = state := by
  obtain ⟨done, line, written, -, isApart⟩ := shows
  cases line with
  | nil => simp [State.space, written.line_eq]
  | cons piece line =>
    rw [List.reverse_cons, ← List.append_assoc, apartAfter_concat, Bool.not_eq_true'] at isApart
    obtain rfl := (List.forall_mem_cons.mp written.inline).1.eq_space isApart
    simp [State.space, written.line_eq, bytes_blank]

/-- Where a solid piece stands at the end, a space is added. -/
theorem space_eq_add (shows : Shows state shown false) : state.space = state.add 0x20 := by
  obtain ⟨done, line, written, -, isApart⟩ := shows
  cases line with
  | nil => simp [written.apart] at isApart
  | cons piece line =>
    rw [List.reverse_cons, ← List.append_assoc, apartAfter_concat, Bool.not_eq_false'] at isApart
    obtain ⟨last, rest, isLast, isSpace⟩ :=
      exists_last (List.forall_mem_cons.mp written.inline).1.toWhole line
    have noSpace : last ≠ 0x20 := by
      intro space
      rw [isSpace space] at isApart
      contradiction
    simp [State.space, written.line_eq, isLast, noSpace]

/-- A space is written, or blanks are already there. -/
theorem space (shows : Shows state shown apart) : Shows state.space shown true := by
  cases apart with
  | true => rwa [shows.space_eq]
  | false =>
    rw [shows.space_eq_add]
    obtain ⟨done, line, written, rfl, -⟩ := shows
    have isBlank : solids [Piece.blank 0x20] = [] := rfl
    refine ⟨done, .blank 0x20 :: line, written.add inline_space, ?_, ?_⟩
    · rw [List.reverse_cons, ← List.append_assoc, placed_append, placed_blanks isBlank,
        List.append_nil]
    · rw [List.reverse_cons, ← List.append_assoc, apartAfter_concat, isSolid, Bool.not_false]

/-- The line is ended. -/
theorem flush (shows : Shows state shown apart) : Shows state.flush shown true := by
  obtain ⟨done, line, written, rfl, -⟩ := shows
  obtain ⟨spaces, kept, rfl, areSpaces, -, flushed⟩ := written.flush
  have same : placed true (done ++ (spaces ++ kept).reverse) =
      placed true done ++ placed true kept.reverse := by
    rw [List.reverse_append, placed_append, written.apart, placed_append, placed_blanks areSpaces,
      List.append_nil]
  refine ⟨_, [], flushed, ?_, ?_⟩
  · rw [same, List.reverse_nil, List.append_nil, placed_append, written.apart]
    split
    · next empty => rw [empty, List.reverse_nil]
    · rw [placed_linePieces]
  · rw [List.reverse_nil, List.append_nil]
    exact flushed.apart

end Shows

/-! ### What a step writes -/

section Step

variable {state next : State} {front : Front} {shown : List Placed} {apart : Bool}
  {rest : List Piece}

/-- Passing a byte writes it. There are blanks in front of a brace, and behind it and
behind a semicolon outside of parentheses. -/
theorem Shows.step_mark {byte : UInt8} (shows : Shows state shown apart)
    (sameDepth : front.depth = state.parens) (whole : (Piece.mark byte).Whole)
    (passed : state.mark byte rest = .ok next) :
    Shows next (shown ++ [⟨apart || (Piece.mark byte).isBrace, .mark byte⟩])
        (front.pass (.mark byte)).loose ∧
      (front.pass (.mark byte)).depth = next.parens := by
  cases byte using sign_cases with
  | openParen =>
    cases passed
    rw [show (Piece.mark 0x28).isBrace = false from rfl, Bool.or_false]
    exact ⟨(shows.mark whole).congr rfl rfl, congrArg (· + 1) sameDepth⟩
  | closeParen =>
    cases passed
    rw [show (Piece.mark 0x29).isBrace = false from rfl, Bool.or_false]
    exact ⟨(shows.mark whole).congr rfl rfl, congrArg (· - 1) sameDepth⟩
  | semicolon =>
    have isLoose : (front.pass (.mark 0x3B)).loose = (front.depth == 0) := rfl
    rw [show (Piece.mark 0x3B).isBrace = false from rfl, Bool.or_false, isLoose, sameDepth]
    by_cases outside : state.parens = 0
    · obtain rfl : (state.add 0x3B).flush = next := by
        simpa [State.mark, Sign.of, outside] using passed
      rw [outside, State.parens_flush]
      exact ⟨(shows.mark whole).flush, sameDepth⟩
    · obtain rfl : state.add 0x3B = next := by
        simpa [State.mark, Sign.of, outside] using passed
      rw [beq_eq_false_iff_ne.mpr outside]
      exact ⟨shows.mark whole, sameDepth⟩
  | openBrace =>
    cases passed
    rw [show (Piece.mark 0x7B).isBrace = true from rfl, Bool.or_true]
    refine ⟨(shows.space.mark whole).flush.congr rfl rfl, sameDepth.trans ?_⟩
    exact ((State.parens_flush (state.space.add 0x7B)).trans (State.parens_space state)).symm
  | closeBrace =>
    rw [show (Piece.mark 0x7D).isBrace = true from rfl, Bool.or_true]
    cases isBraces : state.braces with
    | nil => simp [State.mark, Sign.of, isBraces] at passed
    | cons offset braces =>
      -- the line in front of the brace is ended, and the brace starts the next one
      let closed := { state.flush with braces := braces }.add 0x7D
      have flushed : Shows { state.flush with braces := braces } shown true :=
        shows.flush.congr rfl rfl
      have written : Shows closed (shown ++ [⟨true, .mark 0x7D⟩]) false := flushed.mark whole
      have sameParens : front.depth = closed.parens := sameDepth.trans state.parens_flush.symm
      by_cases isContinued : continued rest
      · obtain rfl : closed.space = next := by
          simpa [State.mark, Sign.of, isBraces, isContinued] using passed
        exact ⟨written.space, sameParens.trans closed.parens_space.symm⟩
      · obtain rfl : closed.flush = next := by
          simpa [State.mark, Sign.of, isBraces, isContinued] using passed
        exact ⟨written.flush, sameParens.trans closed.parens_flush.symm⟩
  | plain byte isPlain noBrace isPass =>
    obtain rfl : state.add byte = next := by simpa [State.mark, isPlain] using passed
    rw [noBrace, Bool.or_false, isPass]
    exact ⟨shows.mark whole, sameDepth⟩

/-- A literal that is not closed is not passed. -/
theorem whole_of_step {piece : Piece} (isPiece : piece.Whole ∨ ∃ text, piece = .unclosed text)
    (passed : state.step piece rest = .ok next) : piece.Whole := by
  rcases isPiece with whole | ⟨text, rfl⟩
  · exact whole
  · cases passed

theorem Shows.step_solid {piece : Piece} (shows : Shows state shown apart)
    (sameDepth : front.depth = state.parens) (whole : piece.Whole) (isSolid : piece.isSolid)
    (passed : state.step piece rest = .ok next) :
    Shows next (shown ++ [⟨apart || piece.isBrace, piece⟩]) (front.pass piece).loose ∧
      (front.pass piece).depth = next.parens := by
  cases piece with
  | blank byte => contradiction
  | mark byte => exact shows.step_mark sameDepth whole passed
  | literal text =>
    cases passed
    rw [show (Piece.literal text).isBrace = false from rfl, Bool.or_false]
    exact ⟨shows.solid whole isSolid, sameDepth⟩
  | unclosed text => contradiction

end Step

/-- If no line is begun, what is written is what the finished lines show. -/
theorem Shows.placed_eq {state : State} {shown : List Placed} {apart : Bool}
    (shows : Shows state shown apart) (empty : state.line = []) :
    placed true (cut (state.lines.reverse.flatMap Line.render)) = shown := by
  obtain ⟨done, line, written, rfl, -⟩ := shows
  cases line with
  | nil =>
    rw [written.lines_eq, cut_flatMap_bytes written.whole, List.reverse_nil, List.append_nil]
  | cons piece line =>
    obtain ⟨last, rest, isLast, -⟩ :=
      exists_last (List.forall_mem_cons.mp written.inline).1.toWhole line
    simp [written.line_eq, isLast] at empty

/-- The lines of the rest of the pieces show these in settled places, behind what is
already written. -/
theorem Shows.linesFrom {state : State} {front : Front} {shown : List Placed} {apart : Bool}
    {pieces : List Piece} {result : List Line}
    (shows : Shows state shown (apart || front.loose)) (sameDepth : front.depth = state.parens)
    (whole : ∀ piece ∈ pieces, piece.Whole ∨ ∃ text, piece = .unclosed text)
    (laid : Layout.linesFrom state pieces = .ok result) :
    placed true (cut (result.flatMap Line.render)) =
      shown ++ settle front (placed apart pieces) := by
  -- along the pieces: what is written, and what stands in front of the next piece
  induction pieces generalizing state front shown apart with
  | nil =>
    obtain rfl : state.flush.lines.reverse = result := by
      cases isBraces : state.braces <;> simp_all [Layout.linesFrom, State.finish]
    rw [shows.flush.placed_eq state.line_flush]
    simp [placed, settle]
  | cons piece pieces ih =>
    obtain ⟨first, others⟩ := List.forall_mem_cons.mp whole
    cases solid : piece.isSolid with
    | false =>
      obtain ⟨byte, rfl⟩ := exists_eq_blank solid
      rw [placed, if_neg (by simp [solid])]
      have moved : Shows { state.space with offset := state.offset + 1 } shown true :=
        shows.space.congr rfl rfl
      exact ih moved (sameDepth.trans state.parens_space.symm) others laid
    | true =>
      rw [placed, if_pos solid, settle]
      cases passed : state.step piece pieces with
      | error fault => simp [Layout.linesFrom, passed] at laid
      | ok next =>
        have isWhole := whole_of_step first passed
        obtain ⟨written, sameDepth⟩ := shows.step_solid sameDepth isWhole solid passed
        rw [Layout.linesFrom, passed] at laid
        have moved : Shows { next with offset := state.offset + piece.bytes.length }
            (shown ++ [⟨apart || front.loose || piece.isBrace, piece⟩])
            (false || (front.pass piece).loose) := written.congr rfl rfl
        rw [ih moved sameDepth others laid, List.append_assoc, Bool.or_assoc]
        rfl

/-- A script can be laid out if it has no zero byte and its lines can be found. -/
theorem format_eq_ok_iff {script text : Bytes} :
    format script = .ok text ↔
      0 ∉ script ∧ ∃ result, lines script = .ok result ∧ result.flatMap Line.render = text := by
  unfold format
  by_cases zero : 0 ∈ script
  · obtain ⟨offset, isOffset⟩ := Option.isSome_iff_exists.mp (List.isSome_idxOf?.mpr zero)
    simp [isOffset, zero]
  · rw [List.idxOf?_eq_none_iff.mpr zero]
    cases laid : lines script <;> simp [zero]

/-- A laid-out script has the solid pieces of the script in settled places. -/
theorem placed_of_format {script text : Bytes} (formatted : format script = .ok text) :
    placed true (cut text) = settle {} (placed true (cut script)) := by
  obtain ⟨-, result, laid, rfl⟩ := format_eq_ok_iff.mp formatted
  have start : Shows {} [] (true || ({} : Front).loose) := .start
  exact start.linesFrom rfl whole_of_mem_cut laid

/-- Whether blanks stand between two neighbours in settled places. -/
theorem exists_settled (front : Front) {places : List Placed} {count : Nat} {first second : Placed}
    (isFirst : places[count]? = some first) (isSecond : places[count + 1]? = some second) :
    ∃ passed : Front, (settle front places)[count + 1]? =
      some ⟨second.apart || (passed.pass first.piece).frees second.piece, second.piece⟩ := by
  refine ⟨((places.take count).map Placed.piece).foldl Front.pass front, ?_⟩
  rw [getElem?_settle, isSecond, List.take_add_one, isFirst]
  simp

/-- Laying a script out keeps its solid pieces, and its literals with them. Where
there are blanks between two of them there are still some, and where there are none
none are put in, but behind a semicolon and beside braces. -/
theorem format_keeps_pieces {script text : Bytes} (formatted : format script = .ok text) :
    solids (cut text) = solids (cut script) ∧
      ∀ count x blanks y, Adjacent (cut script) count x blanks y →
        ∃ others, Adjacent (cut text) count x others y ∧ (blanks ≠ [] → others ≠ []) ∧
          (blanks = [] → others ≠ [] → x.isSemicolon ∨ x.isBrace ∨ y.isBrace) := by
  have settled := placed_of_format formatted
  constructor
  · rw [← map_piece_placed true, settled, map_piece_settle, map_piece_placed]
  · intro count x blanks y adjacent
    -- the places of the two in the script, and then in the text
    obtain ⟨⟨before, isFirst⟩, isSecond⟩ :=
      (exists_adjacent_iff true).mp ⟨blanks, adjacent, rfl⟩
    obtain ⟨passed, next⟩ := exists_settled {} isFirst isSecond
    have first : ∃ before, (settle {} (placed true (cut script)))[count]? = some ⟨before, x⟩ :=
      ⟨_, by rw [getElem?_settle, isFirst, Option.map_some]⟩
    rw [← settled] at first next
    obtain ⟨others, adjacent', between⟩ := (exists_adjacent_iff true).mpr ⟨first, next⟩
    refine ⟨others, adjacent', fun nonempty => ?_, fun empty nonempty => ?_⟩
    · intro empty
      simp [List.isEmpty_eq_false_iff.mpr nonempty, empty] at between
    · have isFree : (passed.pass x).frees y = true := by
        simpa [empty, List.isEmpty_eq_false_iff.mpr nonempty] using between
      simp only [Front.frees, Front.pass, Bool.or_eq_true, Bool.and_eq_true] at isFree
      rcases isFree with (isBrace | ⟨isSemicolon, -⟩) | isBrace
      · exact .inr (.inl isBrace)
      · exact .inl isSemicolon
      · exact .inr (.inr isBrace)

/-- A script with a brace and blanks in a literal, and a semicolon in parentheses. -/
def guardedScript : Bytes :=
  .ofString "if (a;b)\x7bx=\"\x7b ;\"\x7delse\ty"

/-- The script when it is laid out. -/
def guardedText : Bytes :=
  .ofString "if (a;b) \x7b\n\tx=\"\x7b ;\"\n\x7d else y\n"

theorem format_keeps_guardedScript :
    format guardedScript = .ok guardedText ∧
      Adjacent (cut guardedScript) 1 (.mark 0x66) [.blank 0x20] (.mark 0x28) ∧
      solids (cut guardedText) = solids (cut guardedScript) ∧
      ∃ others, Adjacent (cut guardedText) 1 (.mark 0x66) others (.mark 0x28) ∧ others ≠ [] := by
  have formatted : format guardedScript = .ok guardedText := rfl
  have adjacent : Adjacent (cut guardedScript) 1 (.mark 0x66) [.blank 0x20] (.mark 0x28) :=
    ⟨[.mark 0x69], _, rfl, rfl, rfl, rfl, rfl⟩
  obtain ⟨same, neighbours⟩ := format_keeps_pieces formatted
  obtain ⟨others, adjacent', parted, -⟩ := neighbours _ _ _ _ adjacent
  exact ⟨formatted, adjacent, same, others, adjacent', parted (List.cons_ne_nil _ _)⟩

end PascalCompiler.Layout
