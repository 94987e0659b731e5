import PascalCompiler.Text.Bytes

/-!
# The pieces of a script

For its layout a script is cut into blanks, string literals and single bytes.
Nothing is lost: the pieces put together are the script. A string literal ends
at the quote it starts with; a backslash takes the byte behind it along, and a
line may not end inside it. A literal that is not closed ends the cutting.

## Main definitions

* `Piece`: the pieces
* `Piece.bytes`: the bytes of a piece
* `Piece.cut`: the pieces of a script

## Main results

* `Piece.flatMap_bytes_cut`: the pieces put together are the script
-/

namespace PascalCompiler.Layout

/-- A piece of a script. -/
inductive Piece where
  /-- A space, tab, line feed or carriage return outside of literals. -/
  | blank (byte : UInt8)
  /-- A string literal with its quotes. -/
  | literal (text : Bytes)
  /-- Any other byte outside of literals. -/
  | mark (byte : UInt8)
  /-- A literal that is not closed, with all that follows. -/
  | unclosed (text : Bytes)
  deriving DecidableEq

namespace Piece

/-- The bytes of a piece. -/
def bytes : Piece → Bytes
  | .blank byte | .mark byte => [byte]
  | .literal text | .unclosed text => text

/-- Is the byte a blank? -/
def isBlank (byte : UInt8) : Bool :=
  byte == 0x20 || byte == 0x09 || byte == 0x0A || byte == 0x0D

/-- Is the byte a quote, single or double? -/
def isQuote (byte : UInt8) : Bool :=
  byte == 0x22 || byte == 0x27

/-- Where cutting stands: outside of literals, or inside one with the given
quote. Inside, the bytes of the literal are kept latest first, and `escaped`
tells whether the last of them is a backslash that takes the next byte along. -/
inductive State where
  | outside
  | inside (quote : UInt8) (text : Bytes) (escaped : Bool)

/-- The pieces of the rest of a script. -/
def cutFrom : State → Bytes → List Piece
  | .outside, [] => []
  | .outside, byte :: rest =>
    if isQuote byte then cutFrom (.inside byte [byte] false) rest
    else if isBlank byte then .blank byte :: cutFrom .outside rest
    else .mark byte :: cutFrom .outside rest
  | .inside _ text _, [] => [.unclosed text.reverse]
  | .inside quote text true, byte :: rest => cutFrom (.inside quote (byte :: text) false) rest
  | .inside quote text false, byte :: rest =>
    if byte = quote then .literal (byte :: text).reverse :: cutFrom .outside rest
    else if byte = Bytes.lineFeed then [.unclosed (text.reverse ++ byte :: rest)]
    else cutFrom (.inside quote (byte :: text) (byte == 0x5C)) rest

/-- The pieces of a script. -/
def cut (script : Bytes) : List Piece :=
  cutFrom .outside script

/-- The bytes of the literal that cutting is inside of. -/
def State.pending : State → Bytes
  | .outside => []
  | .inside _ text _ => text.reverse

theorem flatMap_bytes_cutFrom (state : State) (script : Bytes) :
    (cutFrom state script).flatMap bytes = state.pending ++ script := by
  fun_induction cutFrom state script <;> simp_all [State.pending, bytes]

/-- The pieces put together are the script. -/
theorem flatMap_bytes_cut (script : Bytes) : (cut script).flatMap bytes = script :=
  flatMap_bytes_cutFrom .outside script

end Piece

end PascalCompiler.Layout
