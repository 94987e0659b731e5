/-!
# Numerals

Numbers as they are written in messages and scripts, and the numerals that
stand for a signed 64-bit integer.

## Main definitions

* `Numeral.decimal`: an integer in decimal digits
* `Numeral.hex`: a number in hexadecimal digits, padded with zeros
* `Numeral.int64?`: the 64-bit integer a signed decimal numeral stands for
-/

namespace PascalCompiler.Numeral

/-- The decimal numeral of an integer, with a minus sign in front if it is
negative. -/
def decimal (n : Int) : String :=
  match n with
  | .ofNat m => String.ofList (Nat.toDigits 10 m)
  | .negSucc m => String.ofList ('-' :: Nat.toDigits 10 (m + 1))

/-- The lower-case hexadecimal numeral of a number, padded with zeros to at
least `width` digits. -/
def hex (width n : Nat) : String :=
  let digits := Nat.toDigits 16 n
  String.ofList (List.replicate (width - digits.length) '0' ++ digits)

/-- Is the integer a signed 64-bit one? -/
def fitsInt64 (n : Int) : Bool :=
  -0x8000000000000000 ≤ n && n < 0x8000000000000000

/-- The number that a nonempty list of decimal digits stands for. -/
def digits? (digits : List Char) : Option Nat :=
  if !digits.isEmpty && digits.all Char.isDigit then
    some (digits.foldl (fun n d => 10 * n + (d.toNat - '0'.toNat)) 0)
  else none

/-- The integer that an optional sign and decimal digits stand for. -/
def signed? : List Char → Option Int
  | '-' :: digits => (digits? digits).map fun n => -(n : Int)
  | '+' :: digits => (digits? digits).map Int.ofNat
  | digits => (digits? digits).map Int.ofNat

/-- The 64-bit integer that an optional sign and decimal digits stand for. -/
def int64? (numeral : String) : Option Int :=
  (signed? numeral.toList).filter fitsInt64

end PascalCompiler.Numeral
