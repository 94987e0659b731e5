import PascalCompiler.Text.Bytes

/-!
# Reading bytes as text

Text is read from bytes as UTF-8. A byte that starts no well-formed sequence is
read as the replacement character, by itself, and reading goes on with the next
byte.

## Main definitions

* `Utf8.head?`: the character at the front of a byte string
* `Utf8.decode`: the text of a byte string
-/

namespace PascalCompiler.Utf8

/-- What a byte that belongs to no well-formed sequence is read as. -/
def replacement : Char := '\uFFFD'

/-- The character whose encoding the byte string starts with, if there is one. -/
def head? (bytes : Bytes) : Option Char :=
  (bytes.take 4).toByteArray.utf8DecodeChar? 0

/-- The characters of a byte string after its first `skip` bytes, which belong
to a character read before. -/
def charsAfter : Nat → Bytes → List Char
  | _, [] => []
  | skip + 1, _ :: rest => charsAfter skip rest
  | 0, byte :: rest =>
    match head? (byte :: rest) with
    | some c => c :: charsAfter (c.utf8Size - 1) rest
    | none => replacement :: charsAfter 0 rest

/-- The characters of a byte string. -/
def chars (bytes : Bytes) : List Char :=
  charsAfter 0 bytes

/-- The text of a byte string. -/
def decode (bytes : Bytes) : String :=
  String.ofList (chars bytes)

end PascalCompiler.Utf8
