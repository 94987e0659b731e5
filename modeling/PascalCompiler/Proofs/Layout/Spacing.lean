import Mathlib.Logic.Relation
import PascalCompiler.Layout.Line

/-!
# Blanks in a script

A script without its blanks is a list of solid pieces, and for each of them it is
asked whether blanks stand in front of it. Only some of the answers matter for the
layout. At the ends of a script, beside braces and behind a semicolon outside of
parentheses, blanks may be left out or put in. Anywhere else a run of blanks may be
replaced by another one, but not by none.

The spacing of a script is settled by taking blanks to be wherever they may be.
Scripts that differ only in blanks as above are settled alike.

## Main definitions

* `Piece.isSolid`, `Piece.solids`: the pieces that are no blanks
* `Adjacent`: two neighbours among the solid pieces, with the blanks between them
* `Respaced`: scripts that differ only in blanks that may differ
* `placed`: the solid pieces of a script, with whether blanks stand in front of them
* `settle`: the same, with blanks wherever they may stand

## Main results

* `exists_adjacent_iff`: neighbours and what stands between them, in terms of `placed`
* `Respaced.settle_eq`: scripts that differ only in blanks that may differ are settled alike
-/

namespace PascalCompiler.Layout

namespace Piece

/-- Is the piece anything but a blank? -/
def isSolid : Piece → Bool
  | .blank _ => false
  | _ => true

/-- The pieces that are no blanks. -/
def solids (pieces : List Piece) : List Piece :=
  pieces.filter isSolid

/-- Is the piece a brace? -/
def isBrace (piece : Piece) : Bool :=
  piece == .mark 0x7B || piece == .mark 0x7D

/-- Is the piece a semicolon? -/
def isSemicolon (piece : Piece) : Bool :=
  piece == .mark 0x3B

/-- The number of open parentheses behind a piece. A closing one without an open one
counts for nothing. -/
def deepen (depth : Nat) : Piece → Nat
  | .mark 0x28 => depth + 1
  | .mark 0x29 => depth - 1
  | _ => depth

/-- The number of open parentheses behind the pieces. -/
def depth (pieces : List Piece) : Nat :=
  pieces.foldl deepen 0

end Piece

open Piece

/-! ### Scripts that differ in blanks -/

/-- Among the pieces, `x` has `count` solid ones in front of it, and `y` is the next
solid one, behind the blanks. -/
def Adjacent (pieces : List Piece) (count : Nat) (x : Piece) (blanks : List Piece)
    (y : Piece) : Prop :=
  ∃ before after, pieces = before ++ x :: (blanks ++ y :: after) ∧
    (solids before).length = count ∧ x.isSolid ∧ y.isSolid ∧ solids blanks = []

/-- Between these pieces, blanks do not matter. -/
inductive Free : List Piece → List Piece → Prop where
  | start {after : List Piece} : Free [] after
  | finish {before : List Piece} : Free before []
  | behindBrace {before after : List Piece} {x : Piece} : x.isBrace → Free (before ++ [x]) after
  | beforeBrace {before after : List Piece} {x : Piece} : x.isBrace → Free before (x :: after)
  | behindSemicolon {before after : List Piece} {x : Piece} : x.isSemicolon →
    depth (before ++ [x]) = 0 → Free (before ++ [x]) after

/-- The scripts differ in one run of blanks. Neither run is empty, unless blanks do
not matter there. -/
def Edited (script other : Bytes) : Prop :=
  ∃ before blanks others after,
    cut script = before ++ (blanks ++ after) ∧ cut other = before ++ (others ++ after) ∧
      solids blanks = [] ∧ solids others = [] ∧
      (blanks ≠ [] ∧ others ≠ [] ∨ Free before after)

/-- The scripts differ in runs of blanks only, and not in whether there are blanks,
unless they do not matter there. -/
def Respaced : Bytes → Bytes → Prop :=
  Relation.ReflTransGen Edited

/-! ### Solid pieces in their places -/

/-- A solid piece, and whether it is apart from what stands in front of it. -/
structure Placed where
  apart : Bool
  piece : Piece

/-- The solid pieces in their places, where `apart` tells whether blanks stand in front
of them all. -/
def placed (apart : Bool) : List Piece → List Placed
  | [] => []
  | piece :: rest =>
    if piece.isSolid then ⟨apart, piece⟩ :: placed false rest else placed true rest

/-- Are there blanks at the end of the pieces? -/
def apartAfter (apart : Bool) (pieces : List Piece) : Bool :=
  pieces.foldl (fun _ piece => !piece.isSolid) apart

section Placed

variable {apart : Bool} {pieces blanks : List Piece}

theorem placed_append (apart : Bool) (pieces rest : List Piece) :
    placed apart (pieces ++ rest) =
      placed apart pieces ++ placed (apartAfter apart pieces) rest := by
  induction pieces generalizing apart with
  | nil => rfl
  | cons piece pieces ih =>
    cases solid : piece.isSolid <;> simp [placed, apartAfter, solid, ih]

theorem apartAfter_concat (apart : Bool) (pieces : List Piece) (piece : Piece) :
    apartAfter apart (pieces ++ [piece]) = !piece.isSolid := by
  simp [apartAfter]

theorem solids_cons_eq_nil {piece : Piece} :
    solids (piece :: pieces) = [] ↔ piece.isSolid = false ∧ solids pieces = [] := by
  simp [solids]

theorem map_piece_placed (apart : Bool) (pieces : List Piece) :
    (placed apart pieces).map Placed.piece = solids pieces := by
  induction pieces generalizing apart with
  | nil => rfl
  | cons piece pieces ih =>
    cases solid : piece.isSolid <;> simp [placed, solids, solid, ih]

theorem length_placed (apart : Bool) (pieces : List Piece) :
    (placed apart pieces).length = (solids pieces).length := by
  rw [← map_piece_placed apart, List.length_map]

theorem placed_blanks (areBlanks : solids blanks = []) : placed apart blanks = [] := by
  rw [← List.length_eq_zero_iff, length_placed, areBlanks, List.length_nil]

theorem apartAfter_blanks (areBlanks : solids blanks = []) :
    apartAfter apart blanks = (apart || !blanks.isEmpty) := by
  induction blanks generalizing apart with
  | nil => simp [apartAfter]
  | cons blank blanks ih =>
    obtain ⟨isBlank, areBlanks⟩ := solids_cons_eq_nil.mp areBlanks
    have later := @ih true areBlanks
    simpa [apartAfter, isBlank] using later

/-- The solid piece at a place, and what stands around it. -/
theorem exists_split {count : Nat} {place : Placed}
    (isPlace : (placed apart pieces)[count]? = some place) :
    ∃ before after, pieces = before ++ place.piece :: after ∧ (solids before).length = count ∧
      place.piece.isSolid ∧ place.apart = apartAfter apart before := by
  induction pieces generalizing apart count with
  | nil => simp [placed] at isPlace
  | cons piece pieces ih =>
    cases solid : piece.isSolid with
    | false =>
      rw [placed, if_neg (by simp [solid])] at isPlace
      obtain ⟨before, after, rfl, isCount, isSolid, isApart⟩ := ih isPlace
      exact ⟨piece :: before, after, rfl, by simpa [solids, solid] using isCount, isSolid,
        by simpa [apartAfter, solid] using isApart⟩
    | true =>
      rw [placed, if_pos solid] at isPlace
      cases count with
      | zero =>
        obtain rfl : ⟨apart, piece⟩ = place := by simpa using isPlace
        exact ⟨[], pieces, rfl, rfl, solid, rfl⟩
      | succ count =>
        obtain ⟨before, after, rfl, isCount, isSolid, isApart⟩ := ih isPlace
        exact ⟨piece :: before, after, rfl, by simpa [solids, solid] using isCount, isSolid,
          by simpa [apartAfter, solid] using isApart⟩

theorem placed_solid (apart : Bool) (before : List Piece) {x : Piece} (after : List Piece)
    (isSolid : x.isSolid) : placed apart (before ++ x :: after) =
      placed apart before ++ ⟨apartAfter apart before, x⟩ :: placed false after := by
  rw [placed_append, placed, if_pos isSolid]

/-- Two neighbours among the solid pieces have two places next to each other, and the
second tells whether there are blanks between them. -/
theorem exists_adjacent_iff (apart : Bool) {count : Nat} {x y : Piece} {between : Bool} :
    (∃ blanks, Adjacent pieces count x blanks y ∧ between = !blanks.isEmpty) ↔
      (∃ before, (placed apart pieces)[count]? = some ⟨before, x⟩) ∧
        (placed apart pieces)[count + 1]? = some ⟨between, y⟩ := by
  constructor
  · rintro ⟨blanks, ⟨before, after, rfl, rfl, isFirst, isSecond, areBlanks⟩, rfl⟩
    rw [placed_solid apart before _ isFirst, placed_solid false blanks after isSecond,
      placed_blanks areBlanks, apartAfter_blanks areBlanks, ← length_placed apart]
    simp
  · rintro ⟨⟨_, first⟩, second⟩
    obtain ⟨before, rest, rfl, rfl, isFirst, -⟩ := exists_split first
    -- the second piece is the first solid one of the rest
    have next : (placed false rest)[0]? = some ⟨between, y⟩ := by
      rw [placed_solid apart before rest isFirst, ← length_placed apart,
        List.getElem?_append_right (Nat.le_succ _)] at second
      simpa using second
    obtain ⟨blanks, after, rfl, none, isSecond, isBetween⟩ := exists_split next
    have areBlanks : solids blanks = [] := List.length_eq_zero_iff.mp none
    refine ⟨blanks, ⟨before, after, rfl, rfl, isFirst, isSecond, areBlanks⟩, ?_⟩
    simpa [apartAfter_blanks areBlanks] using isBetween

end Placed

/-! ### Settled places -/

/-- What stands in front of a piece: the number of open parentheses, and whether it
may be parted by blanks from whatever follows. -/
structure Front where
  depth : Nat := 0
  loose : Bool := true

namespace Front

/-- May blanks stand in front of the piece or not? -/
def frees (front : Front) (piece : Piece) : Bool :=
  front.loose || piece.isBrace

/-- What stands in front of the next piece. -/
def pass (front : Front) (piece : Piece) : Front :=
  { depth := deepen front.depth piece
    loose := piece.isBrace || piece.isSemicolon && front.depth == 0 }

end Front

/-- A byte is one of the five signs, or a plain one. -/
theorem sign_cases {motive : UInt8 → Prop} (openParen : motive 0x28) (closeParen : motive 0x29)
    (semicolon : motive 0x3B) (openBrace : motive 0x7B) (closeBrace : motive 0x7D)
    (plain : ∀ byte, Sign.of byte = .plain → (Piece.mark byte).isBrace = false →
      (∀ front : Front, front.pass (.mark byte) = ⟨front.depth, false⟩) → motive byte)
    (byte : UInt8) : motive byte := by
  by_cases isOpen : byte = 0x28
  · exact isOpen ▸ openParen
  by_cases isClose : byte = 0x29
  · exact isClose ▸ closeParen
  by_cases isSemicolon : byte = 0x3B
  · exact isSemicolon ▸ semicolon
  by_cases opens : byte = 0x7B
  · exact opens ▸ openBrace
  by_cases closes : byte = 0x7D
  · exact closes ▸ closeBrace
  apply plain
  · simp [Sign.of, isOpen, isClose, isSemicolon, opens, closes]
  · simp [Piece.isBrace, opens, closes]
  · intro front
    simp [Front.pass, deepen, Piece.isBrace, Piece.isSemicolon, isOpen, isClose, isSemicolon,
      opens, closes]

/-- The places, with blanks wherever they may stand. -/
def settle (front : Front) : List Placed → List Placed
  | [] => []
  | place :: rest =>
    ⟨place.apart || front.frees place.piece, place.piece⟩ :: settle (front.pass place.piece) rest

section Settle

variable {front : Front} {apart : Bool} {pieces : List Piece}

theorem settle_append (front : Front) (places rest : List Placed) :
    settle front (places ++ rest) = settle front places ++
      settle ((places.map Placed.piece).foldl Front.pass front) rest := by
  induction places generalizing front with
  | nil => rfl
  | cons place places ih => simp [settle, ih]

theorem settle_settle (front : Front) (places : List Placed) :
    settle front (settle front places) = settle front places := by
  induction places generalizing front with
  | nil => rfl
  | cons place places ih => simp [settle, ih]

theorem map_piece_settle (front : Front) (places : List Placed) :
    (settle front places).map Placed.piece = places.map Placed.piece := by
  induction places generalizing front with
  | nil => rfl
  | cons place places ih => simp [settle, ih]

/-- A settled place has blanks in front of it if it had them before, or if they may
stand there. -/
theorem getElem?_settle (front : Front) (places : List Placed) (count : Nat) :
    (settle front places)[count]? = places[count]?.map fun place =>
      ⟨place.apart || (((places.take count).map Placed.piece).foldl Front.pass front).frees
        place.piece, place.piece⟩ := by
  induction places generalizing front count with
  | nil => rfl
  | cons place places ih =>
    cases count with
    | zero => simp [settle]
    | succ count => simp [settle, ih]

theorem depth_foldl_pass (front : Front) (pieces : List Piece) :
    ((solids pieces).foldl Front.pass front).depth = pieces.foldl deepen front.depth := by
  induction pieces generalizing front with
  | nil => rfl
  | cons piece pieces ih =>
    cases piece with
    | blank byte => exact ih front
    | _ => exact ih (front.pass _)

theorem foldl_pass_append {x : Piece} (before : List Piece) (isSolid : x.isSolid) :
    (solids (before ++ [x])).foldl Front.pass front =
      ((solids before).foldl Front.pass front).pass x := by
  simp [solids, isSolid]

theorem exists_eq_blank {x : Piece} (isBlank : x.isSolid = false) : ∃ byte, x = .blank byte := by
  cases x <;> simp_all [isSolid]

theorem isSolid_of_isBrace {x : Piece} (isBrace : x.isBrace) : x.isSolid := by
  cases x <;> simp_all [Piece.isBrace, isSolid]

theorem isSolid_of_isSemicolon {x : Piece} (isSemicolon : x.isSemicolon) : x.isSolid := by
  cases x <;> simp_all [Piece.isSemicolon, isSolid]

/-- Where blanks may stand or not, it does not matter for the settled places if they do. -/
theorem settle_placed_of_loose (loose : front.loose = true) (apart : Bool) :
    settle front (placed apart pieces) = settle front (placed true pieces) := by
  cases pieces with
  | nil => rfl
  | cons piece pieces =>
    cases solid : piece.isSolid <;> simp [placed, solid, settle, Front.frees, loose]

theorem settle_placed_of_brace {x : Piece} (isBrace : x.isBrace) (apart : Bool) :
    settle front (placed apart (x :: pieces)) = settle front (placed true (x :: pieces)) := by
  simp [placed, isSolid_of_isBrace isBrace, settle, Front.frees, isBrace]

theorem settle_placed_of_free {before : List Piece} (free : Free before pieces)
    (apart : Bool) :
    settle ((solids before).foldl Front.pass {}) (placed apart pieces) =
      settle ((solids before).foldl Front.pass {}) (placed true pieces) := by
  cases free with
  | start => exact settle_placed_of_loose rfl apart
  | finish => rfl
  | behindBrace isBrace =>
    apply settle_placed_of_loose
    rw [foldl_pass_append _ (isSolid_of_isBrace isBrace), Front.pass, isBrace, Bool.true_or]
  | beforeBrace isBrace => exact settle_placed_of_brace isBrace apart
  | @behindSemicolon before _ x isSemicolon isZero =>
    apply settle_placed_of_loose
    have outside : ((solids before).foldl Front.pass {}).depth = 0 := by
      obtain rfl : x = .mark 0x3B := by simpa [Piece.isSemicolon] using isSemicolon
      rw [depth, List.foldl_append] at isZero
      exact (depth_foldl_pass {} before).trans isZero
    rw [foldl_pass_append _ (isSolid_of_isSemicolon isSemicolon), Front.pass, isSemicolon,
      outside]
    simp

/-- Scripts that differ in one run of blanks are settled alike. -/
theorem Edited.settle_eq {script other : Bytes} (edited : Edited script other) :
    settle {} (placed true (cut script)) = settle {} (placed true (cut other)) := by
  obtain ⟨before, blanks, others, after, isScript, isOther, areBlanks, areBlanks', place⟩ := edited
  rw [isScript, isOther]
  simp only [placed_append, placed_blanks areBlanks, placed_blanks areBlanks', settle_append,
    map_piece_placed, List.nil_append]
  congr 1
  rcases place with ⟨nonempty, nonempty'⟩ | free
  · rw [apartAfter_blanks areBlanks, apartAfter_blanks areBlanks']
    rw [List.isEmpty_eq_false_iff.mpr nonempty, List.isEmpty_eq_false_iff.mpr nonempty']
  · rw [settle_placed_of_free free, settle_placed_of_free free (apartAfter _ others)]

/-- Scripts that differ only in blanks that may differ are settled alike. -/
theorem Respaced.settle_eq {script other : Bytes} (respaced : Respaced script other) :
    settle {} (placed true (cut script)) = settle {} (placed true (cut other)) := by
  induction respaced with
  | refl => rfl
  | tail _ edited ih => exact ih.trans edited.settle_eq

end Settle

end PascalCompiler.Layout
