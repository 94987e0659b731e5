import PascalCompiler.Text.Utf8

/-!
# White space

The characters with the Unicode property `White_Space`, and the trimming of
byte strings that removes them at both ends.

## Main definitions

* `Blank.isBlank`: the property
* `Blank.trim`: a byte string without the white space at its ends
-/

namespace PascalCompiler.Blank

/-- The ranges of code points with the property `White_Space`. -/
def ranges : List (Nat × Nat) :=
  [(0x09, 0x0D), (0x20, 0x20), (0x85, 0x85), (0xA0, 0xA0), (0x1680, 0x1680), (0x2000, 0x200A),
    (0x2028, 0x2029), (0x202F, 0x202F), (0x205F, 0x205F), (0x3000, 0x3000)]

/-- Is the character white space? -/
def isBlank (c : Char) : Bool :=
  ranges.any fun (low, high) => low ≤ c.toNat && c.toNat ≤ high

/-- The number of bytes that the white space at the front of a byte string
takes, when the first `skip` bytes belong to a character found to be blank. -/
def leading : Nat → Bytes → Nat
  | _, [] => 0
  | skip + 1, _ :: rest => leading skip rest + 1
  | 0, byte :: rest =>
    match Utf8.head? (byte :: rest) with
    | some c => if isBlank c then leading (c.utf8Size - 1) rest + 1 else 0
    | none => 0

/-- The number of bytes up to the end of the last character that is not white
space, counted from a byte string of which `seen` bytes have been passed and
`kept` of them are needed. -/
def kept (seen needed : Nat) : Nat → Bytes → Nat
  | _, [] => needed
  | skip + 1, _ :: rest => kept (seen + 1) needed skip rest
  | 0, byte :: rest =>
    match Utf8.head? (byte :: rest) with
    | some c =>
      if isBlank c then kept (seen + 1) needed (c.utf8Size - 1) rest
      else kept (seen + 1) (seen + c.utf8Size) (c.utf8Size - 1) rest
    | none => kept (seen + 1) (seen + 1) 0 rest

/-- A byte string without the white space at its ends. -/
def trim (bytes : Bytes) : Bytes :=
  let body := bytes.drop (leading 0 bytes)
  body.take (kept 0 0 0 body)

end PascalCompiler.Blank
