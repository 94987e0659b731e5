/-!
# Byte strings

Documents and scripts arrive as bytes that need not be valid UTF-8. A byte
string is a list of bytes, so that scanners recurse on its structure.

## Main definitions

* `Bytes`: a byte string
* `Bytes.ofString`: the UTF-8 encoding of a text
* `Bytes.lineColumn`: where in a byte string an offset lies
-/

namespace PascalCompiler

/-- A byte string. -/
abbrev Bytes := List UInt8

namespace Bytes

/-- The UTF-8 encoding of a text. -/
def ofString (text : String) : Bytes :=
  text.toByteArray.data.toList

/-- The line feed byte. -/
def lineFeed : UInt8 := 0x0A

/-- The line and column, both from one, of the byte that follows `before`.
Lines end with a line feed, columns count bytes. -/
def lineColumn (before : Bytes) : Nat × Nat :=
  (before.count lineFeed + 1, (before.reverse.takeWhile (· != lineFeed)).length + 1)

end Bytes

end PascalCompiler
