import PascalCompiler.Proofs.Layout.Rendering

/-!
# The layout as a canonical form

A script and its solid pieces in settled places, with one space for all blanks, are
laid out alike. Two runs of the layout are compared for that, one over the pieces of the
script and one over the settled pieces. Where the runs see different blanks, their
states differ by a space at the end of the line at most. The space is already there, or
it is put in, or it is dropped with the next piece. Offsets differ, and they only
matter for faults.

So scripts that are settled alike are laid out alike. Among them are those that differ
only in blanks that may differ, and every script and its own layout.

## Main definitions

* `State.Agree`: states that differ in offsets only
* `spread`: the pieces of settled places

## Main results

* `alike_linesFrom`: a script is laid out as its settled pieces are
* `format_canonical`: scripts that differ only in blanks that may differ are laid out alike, and a
  laid-out script stays as it is
-/

namespace PascalCompiler.Layout

open Piece

/-! ### Runs that agree -/

/-- Both runs fail, or both have results that agree. -/
def Alike {ε α : Type} (agree : α → α → Prop) : Except ε α → Except ε α → Prop
  | .ok result, .ok other => agree result other
  | .error _, .error _ => True
  | _, _ => False

/-- The states differ in offsets only. -/
structure State.Agree (state other : State) : Prop where
  line : state.line = other.line
  braces : state.braces.length = other.braces.length
  parens : state.parens = other.parens
  lines : state.lines = other.lines

namespace State.Agree

variable {state other third : State}

theorem refl (state : State) : state.Agree state :=
  ⟨rfl, rfl, rfl, rfl⟩

theorem trans (agree : state.Agree other) (next : other.Agree third) : state.Agree third :=
  ⟨agree.line.trans next.line, agree.braces.trans next.braces, agree.parens.trans next.parens,
    agree.lines.trans next.lines⟩

theorem write (agree : state.Agree other) (text : Bytes) :
    { state with line := text ++ state.line }.Agree { other with line := text ++ other.line } :=
  ⟨congrArg (text ++ ·) agree.line, agree.braces, agree.parens, agree.lines⟩

theorem add (agree : state.Agree other) (byte : UInt8) :
    (state.add byte).Agree (other.add byte) :=
  agree.write [byte]

theorem space (agree : state.Agree other) : state.space.Agree other.space := by
  unfold State.space
  rw [agree.line]
  split
  · exact agree
  · split
    · exact agree
    · exact agree.add 0x20

theorem flush (agree : state.Agree other) : state.flush.Agree other.flush := by
  unfold State.flush
  rw [agree.line]
  split
  · exact ⟨rfl, agree.braces, agree.parens, agree.lines⟩
  · exact ⟨rfl, agree.braces, agree.parens, by rw [agree.braces, agree.lines]⟩

end State.Agree

section Spaces

variable (state : State)

theorem State.space_space : state.space.space = state.space := by
  cases isLine : state.line with
  | nil => simp [State.space, isLine]
  | cons last rest =>
    by_cases isSpace : last = 0x20 <;> simp [State.space, State.add, isLine, isSpace]

theorem State.flush_space : state.space.flush = state.flush := by
  have same : state.space.line.dropWhile (· == 0x20) = state.line.dropWhile (· == 0x20) := by
    cases isLine : state.line with
    | nil => simp [State.space, isLine]
    | cons last rest =>
      by_cases isSpace : last = 0x20 <;> simp [State.space, State.add, isLine, isSpace]
  unfold State.flush
  rw [same]
  split <;> rw [state.space_eq]

/-- A space in front of a brace does not matter. -/
theorem State.step_space {piece : Piece} (isBrace : piece.isBrace) (rest : List Piece) :
    state.space.step piece rest = state.step piece rest := by
  have either : piece = .mark 0x7B ∨ piece = .mark 0x7D := by
    simpa [Piece.isBrace] using isBrace
  have sameOffset : state.space.offset = state.offset := by rw [state.space_eq]
  rcases either with rfl | rfl
  · simp [State.step, State.mark, Sign.of, state.space_space, sameOffset, state.braces_space]
  · simp [State.step, State.mark, Sign.of, state.flush_space, sameOffset, state.braces_space]

end Spaces

/-- Agreeing states take agreeing steps, if they see the same behind a closing brace. -/
theorem State.Agree.step {state other : State} {rest rest' : List Piece}
    (agree : state.Agree other) (piece : Piece) (same : continued rest = continued rest') :
    Alike State.Agree (state.step piece rest) (other.step piece rest') := by
  cases piece with
  | blank byte => exact agree.space
  | literal text => exact agree.write text.reverse
  | unclosed text => trivial
  | mark byte =>
    cases byte using sign_cases with
    | openParen =>
      exact ⟨(agree.add 0x28).line, agree.braces, congrArg (· + 1) agree.parens, agree.lines⟩
    | closeParen =>
      exact ⟨(agree.add 0x29).line, agree.braces, congrArg (· - 1) agree.parens, agree.lines⟩
    | semicolon =>
      have added := agree.add 0x3B
      by_cases outside : other.parens = 0
      · simpa [State.step, State.mark, Sign.of, agree.parens, outside, Alike] using added.flush
      · simpa [State.step, State.mark, Sign.of, agree.parens, outside, Alike] using added
    | openBrace =>
      have opened := (agree.space.add 0x7B).flush
      exact ⟨opened.line, congrArg (· + 1) agree.braces, opened.parens, opened.lines⟩
    | closeBrace =>
      have sameLength := agree.braces
      cases isBraces : state.braces with
      | nil =>
        have none : other.braces = [] := by simpa [isBraces] using sameLength.symm
        simp [State.step, State.mark, Sign.of, isBraces, none, Alike]
      | cons offset braces =>
        obtain ⟨offset', braces', isBraces'⟩ := List.exists_cons_of_length_eq_add_one
          (sameLength.symm.trans (congrArg List.length isBraces))
        have inner : braces.length = braces'.length := by
          simpa [isBraces, isBraces'] using sameLength
        have closed : ({ state.flush with braces := braces }.add 0x7D).Agree
            ({ other.flush with braces := braces' }.add 0x7D) := by
          have flushed := agree.flush.add 0x7D
          exact ⟨flushed.line, inner, flushed.parens, flushed.lines⟩
        cases isContinued : continued rest' with
        | true =>
          simpa [State.step, State.mark, Sign.of, isBraces, isBraces', same, isContinued, Alike]
            using closed.space
        | false =>
          simpa [State.step, State.mark, Sign.of, isBraces, isBraces', same, isContinued, Alike]
            using closed.flush
    | plain byte isPlain _ _ =>
      simpa [State.step, State.mark, isPlain, Alike] using agree.add byte

/-! ### Settled pieces -/

/-- The pieces of the places, with a space where blanks stand. -/
def spread : List Placed → List Piece
  | [] => []
  | place :: rest =>
    if place.apart then .blank 0x20 :: place.piece :: spread rest else place.piece :: spread rest

theorem spread_solid {front : Front} {apart : Bool} {piece : Piece} (pieces : List Piece)
    (isSolid : piece.isSolid) :
    spread (settle front (placed apart (piece :: pieces))) =
      (if apart || front.frees piece then [.blank 0x20] else []) ++
        piece :: spread (settle (front.pass piece) (placed false pieces)) := by
  rw [placed, if_pos isSolid, settle, spread]
  split <;> rfl

theorem spread_blank {front : Front} {apart : Bool} {piece : Piece} (pieces : List Piece)
    (isBlank : piece.isSolid = false) :
    spread (settle front (placed apart (piece :: pieces))) =
      spread (settle front (placed true pieces)) := by
  rw [placed, if_neg (by simp [isBlank])]

/-- A word does not stand behind blanks. -/
theorem startsWith_spread_true {word : Bytes} {front : Front} {pieces : List Piece} :
    startsWith word (spread (settle front (placed true pieces))) = word.isEmpty := by
  induction pieces with
  | nil => cases word <;> rfl
  | cons piece pieces ih =>
    cases solid : piece.isSolid with
    | false => rw [spread_blank pieces solid, ih]
    | true =>
      rw [spread_solid pieces solid]
      cases word <;> rfl

theorem pass_plain {byte : UInt8} (front : Front) (isPlain : Sign.of byte = .plain) :
    (Piece.mark byte).isBrace = false ∧ (front.pass (.mark byte)).loose = false := by
  cases byte using sign_cases with
  | plain byte _ noBrace isPass => exact ⟨noBrace, by rw [isPass]⟩
  | _ => contradiction

/-- Only where the first byte is the right one, the rest matters. -/
theorem startsWith_mark_congr {expected byte : UInt8} {word : Bytes} {rest rest' : List Piece}
    (same : byte = expected → startsWith word rest = startsWith word rest') :
    startsWith (expected :: word) (.mark byte :: rest) =
      startsWith (expected :: word) (.mark byte :: rest') := by
  by_cases isExpected : byte = expected
  · rw [startsWith, startsWith, same isExpected]
  · simp [startsWith, beq_eq_false_iff_ne.mpr isExpected]

/-- Settling the places does not change whether a word stands there. -/
theorem startsWith_spread {word : Bytes} {front : Front} {pieces : List Piece}
    (plain : ∀ byte ∈ word, Sign.of byte = .plain) (tight : front.loose = false) :
    startsWith word (spread (settle front (placed false pieces))) = startsWith word pieces := by
  induction pieces generalizing front word with
  | nil => rfl
  | cons piece pieces ih =>
    cases piece with
    | blank byte =>
      rw [spread_blank pieces rfl, startsWith_spread_true]
      cases word <;> rfl
    | literal text =>
      rw [spread_solid pieces rfl, Front.frees, tight]
      cases word <;> rfl
    | unclosed text =>
      rw [spread_solid pieces rfl, Front.frees, tight]
      cases word <;> rfl
    | mark byte =>
      rw [spread_solid pieces rfl, Front.frees, tight]
      cases word with
      | nil =>
        cases isBrace : (Piece.mark byte).isBrace with
        | false => rfl
        | true =>
          have either : byte = 0x7B ∨ byte = 0x7D := by simpa [Piece.isBrace] using isBrace
          rcases either with rfl | rfl <;> rfl
      | cons expected word =>
        obtain ⟨isPlain, others⟩ := List.forall_mem_cons.mp plain
        cases isBrace : (Piece.mark byte).isBrace with
        | false =>
          apply startsWith_mark_congr
          rintro rfl
          exact ih others (pass_plain front isPlain).2
        | true =>
          -- there is no brace in a word
          have differs : (byte == expected) = false := by
            apply beq_eq_false_iff_ne.mpr
            rintro rfl
            rw [(pass_plain front isPlain).1] at isBrace
            contradiction
          simp [startsWith, differs]

theorem plain_of_mem_continuations {word : Bytes} (mem : word ∈ continuations) :
    word ≠ [] ∧ ∀ byte ∈ word, Sign.of byte = .plain := by
  have checked : continuations.all (fun word =>
      !word.isEmpty && word.all (Sign.of · == .plain)) = true := rfl
  have ofWord := List.all_eq_true.mp checked word mem
  simpa using ofWord

theorem continued_solid {piece : Piece} (isSolid : piece.isSolid) (apart : Bool)
    (pieces : List Piece) :
    continued ((if apart then [.blank 0x20] else []) ++ piece :: pieces) =
      continuations.any (startsWith · (piece :: pieces)) := by
  cases piece with
  | blank byte => contradiction
  | _ => cases apart <;> rfl

/-- Settling the places does not change what continues a closing brace. -/
theorem continued_spread (front : Front) (apart : Bool) (pieces : List Piece) :
    continued (spread (settle front (placed apart pieces))) = continued pieces := by
  induction pieces generalizing apart with
  | nil => rfl
  | cons piece pieces ih =>
    cases solid : piece.isSolid with
    | false =>
      rw [spread_blank pieces solid, ih]
      obtain ⟨byte, rfl⟩ := exists_eq_blank solid
      rfl
    | true =>
      rw [spread_solid pieces solid, continued_solid solid]
      refine Eq.trans ?_ (continued_solid solid false pieces).symm
      rw [Bool.eq_iff_iff, List.any_eq_true, List.any_eq_true]
      refine exists_congr fun word => and_congr_right fun mem => ?_
      obtain ⟨nonempty, plain⟩ := plain_of_mem_continuations mem
      obtain ⟨expected, word, rfl⟩ := List.exists_cons_of_ne_nil nonempty
      obtain ⟨isPlain, others⟩ := List.forall_mem_cons.mp plain
      cases piece with
      | mark byte =>
        rw [startsWith_mark_congr]
        rintro rfl
        exact startsWith_spread others (pass_plain front isPlain).2
      | _ => rfl

/-! ### The two runs -/

theorem Alike.trans {ε α : Type} {agree : α → α → Prop} {first second third : Except ε α}
    (alike : Alike agree first second) (next : Alike agree second third)
    (transitive : ∀ a b c, agree a b → agree b c → agree a c) : Alike agree first third := by
  cases first <;> cases second <;> cases third <;> simp_all [Alike]
  exact transitive _ _ _ alike next

theorem State.Agree.finish {state other : State} (agree : state.Agree other) :
    Alike Eq state.finish other.finish := by
  have sameLines := agree.flush.lines
  have sameLength := agree.braces
  cases isBraces : state.braces <;> cases isBraces' : other.braces <;>
    simp_all [State.finish, Alike]

theorem State.finish_space (state : State) : state.space.finish = state.finish := by
  simp only [State.finish, state.braces_space, state.flush_space]

/-- A space in front of a piece does not matter where blanks may stand or not. -/
theorem step_settled {state : State} {front : Front} {shown : List Placed}
    (shows : Shows state shown front.loose) (apart : Bool) (piece : Piece) (rest : List Piece) :
    (if apart then state.space else state).step piece rest =
      (if apart || front.frees piece then state.space else state).step piece rest := by
  cases apart with
  | true => rfl
  | false =>
    unfold Front.frees
    cases isLoose : front.loose with
    | true =>
      rw [isLoose] at shows
      simp [shows.space_eq]
    | false =>
      cases isBrace : piece.isBrace with
      | false => rfl
      | true => exact (state.step_space isBrace rest).symm

/-- A run passes a space first. -/
theorem exists_spaced {state : State} {shown : List Placed} {apart : Bool}
    (shows : Shows state shown apart) (spaced : Bool) :
    ∃ next apart', (∀ pieces, linesFrom state ((if spaced then [.blank 0x20] else []) ++ pieces) =
        linesFrom next pieces) ∧
      (if spaced then state.space else state).Agree next ∧ Shows next shown apart' := by
  cases spaced with
  | false => exact ⟨state, apart, fun _ => rfl, .refl state, shows⟩
  | true =>
    exact ⟨{ state.space with offset := state.offset + 1 }, true, fun _ => rfl,
      ⟨rfl, rfl, rfl, rfl⟩, shows.space.congr rfl rfl⟩

/-- A script is laid out as its settled pieces are. The states of the two runs agree,
but for the blanks that only the first has passed. -/
theorem alike_linesFrom {state other : State} {front : Front} {shown : List Placed} {apart : Bool}
    {pieces : List Piece} (agree : state.Agree (if apart then other.space else other))
    (shows : Shows other shown front.loose) (sameDepth : front.depth = other.parens)
    (whole : ∀ piece ∈ pieces, piece.Whole ∨ ∃ text, piece = .unclosed text) :
    Alike Eq (linesFrom state pieces)
      (linesFrom other (spread (settle front (placed apart pieces)))) := by
  induction pieces generalizing state other front shown apart with
  | nil =>
    -- blanks at the end of the script are dropped with the last line
    have finished := agree.finish
    cases apart with
    | false => exact finished
    | true =>
      rw [if_pos rfl, other.finish_space] at finished
      exact finished
  | cons piece pieces ih =>
    obtain ⟨first, others⟩ := List.forall_mem_cons.mp whole
    cases solid : piece.isSolid with
    | false =>
      obtain ⟨byte, rfl⟩ := exists_eq_blank solid
      rw [spread_blank pieces solid]
      -- only the first run passes the blank now, and the second one with the next piece
      have spaced : state.space.Agree other.space := by
        have spaced := agree.space
        cases apart with
        | false => exact spaced
        | true => exact other.space_space ▸ spaced
      exact ih ⟨spaced.line, spaced.braces, spaced.parens, spaced.lines⟩ shows sameDepth others
    | true =>
      rw [spread_solid pieces solid]
      obtain ⟨reached, apart', isRun, reaches, shows'⟩ :=
        exists_spaced shows (apart || front.frees piece)
      rw [isRun]
      have sameDepth' : front.depth = reached.parens := by
        rw [sameDepth, ← reaches.parens]
        split
        · exact other.parens_space.symm
        · rfl
      -- both runs see the same behind the piece, and pass it alike
      have passes : Alike State.Agree (state.step piece pieces)
          (reached.step piece (spread (settle (front.pass piece) (placed false pieces)))) := by
        have passes := agree.step piece (continued_spread (front.pass piece) false pieces).symm
        rw [step_settled shows] at passes
        exact passes.trans (reaches.step piece rfl) fun _ _ _ => State.Agree.trans
      rw [linesFrom, linesFrom]
      cases passed : state.step piece pieces <;>
        cases passed' : reached.step piece
          (spread (settle (front.pass piece) (placed false pieces))) <;>
        rw [passed, passed'] at passes
      case error.error => trivial
      case error.ok => exact False.elim passes
      case ok.error => exact False.elim passes
      case ok.ok next next' =>
        have isWhole := whole_of_step first passed
        obtain ⟨written, sameDepth⟩ := shows'.step_solid sameDepth' isWhole solid passed'
        exact ih ⟨passes.line, passes.braces, passes.parens, passes.lines⟩ (written.congr rfl rfl)
          sameDepth others

theorem alike_lines (script : Bytes) :
    Alike Eq (lines script) (linesFrom {} (spread (settle {} (placed true (cut script))))) :=
  alike_linesFrom (.refl {}) .start rfl whole_of_mem_cut

/-- Scripts that are settled alike have the same lines, or none at all. -/
theorem lines_eq_ok_iff {script other : Bytes}
    (settled : settle {} (placed true (cut script)) = settle {} (placed true (cut other)))
    {result : List Line} : lines script = .ok result ↔ lines other = .ok result := by
  have alike := alike_lines script
  have alike' := alike_lines other
  rw [settled] at alike
  cases laid : lines script <;> cases laid' : lines other <;>
    cases run : linesFrom {} (spread (settle {} (placed true (cut other)))) <;>
    simp_all [Alike]

/-! ### Zero bytes -/

theorem blank_zero_not_mem {script : Bytes} : Piece.blank 0 ∉ cut script := by
  intro mem
  rcases whole_of_mem_cut _ mem with whole | ⟨text, isText⟩
  · have again : [Piece.mark 0] = [.blank 0] := whole.cut_append []
    cases again
  · cases isText

/-- The zero bytes of a script are in its solid pieces. -/
theorem zero_mem_iff {script : Bytes} :
    0 ∈ script ↔ ∃ piece ∈ solids (cut script), 0 ∈ piece.bytes := by
  have inPieces : 0 ∈ script ↔ ∃ piece ∈ cut script, 0 ∈ piece.bytes := by
    rw [← List.mem_flatMap, flatMap_bytes_cut]
  rw [inPieces]
  constructor
  · rintro ⟨piece, mem, zero⟩
    refine ⟨piece, List.mem_filter.mpr ⟨mem, ?_⟩, zero⟩
    cases solid : piece.isSolid with
    | true => rfl
    | false =>
      obtain ⟨byte, rfl⟩ := exists_eq_blank solid
      obtain rfl : 0 = byte := List.mem_singleton.mp zero
      exact absurd mem blank_zero_not_mem
  · rintro ⟨piece, mem, zero⟩
    exact ⟨piece, (List.mem_filter.mp mem).1, zero⟩

/-- Scripts that are settled alike are laid out alike. -/
theorem format_eq_ok_iff_of_settle_eq {script other : Bytes}
    (settled : settle {} (placed true (cut script)) = settle {} (placed true (cut other)))
    {text : Bytes} : format script = .ok text ↔ format other = .ok text := by
  have sameSolids : solids (cut script) = solids (cut other) := by
    rw [← map_piece_placed true, ← map_piece_settle {}, settled, map_piece_settle,
      map_piece_placed]
  rw [format_eq_ok_iff, format_eq_ok_iff, zero_mem_iff, zero_mem_iff, sameSolids]
  simp only [lines_eq_ok_iff settled]

/-- Scripts that differ only in blanks that may differ are laid out alike, or neither
can be laid out. A script that is laid out stays as it is when it is laid out again. -/
theorem format_canonical :
    (∀ script other, Respaced script other →
      ∀ text, format script = .ok text ↔ format other = .ok text) ∧
      ∀ script text, format script = .ok text → format text = .ok text := by
  constructor
  · intro script other respaced text
    exact format_eq_ok_iff_of_settle_eq respaced.settle_eq
  · intro script text formatted
    -- the places of a laid-out script are settled, and settling them again changes nothing
    have settled : settle {} (placed true (cut script)) = settle {} (placed true (cut text)) := by
      rw [placed_of_format formatted, settle_settle]
    exact (format_eq_ok_iff_of_settle_eq settled).mp formatted

/-- The script with blanks in front of its opening brace. -/
def spacedScript : Bytes :=
  .ofString "if (a;b) \n\x7bx=\"\x7b ;\"\x7delse\ty"

theorem format_canonical_spacedScript :
    Respaced guardedScript spacedScript ∧ format guardedScript = .ok guardedText ∧
      format spacedScript = .ok guardedText ∧ format guardedText = .ok guardedText := by
  have formatted : format guardedScript = .ok guardedText := rfl
  have edited : Edited guardedScript spacedScript :=
    ⟨cut (.ofString "if (a;b)"), [], [.blank 0x20, .blank 0x0A], _, rfl, rfl, rfl, rfl,
      .inr (.beforeBrace rfl)⟩
  have respaced : Respaced guardedScript spacedScript := .single edited
  obtain ⟨alike, stays⟩ := format_canonical
  exact ⟨respaced, formatted, (alike _ _ respaced _).mp formatted, stays _ _ formatted⟩

end PascalCompiler.Layout
