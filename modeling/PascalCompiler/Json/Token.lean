import PascalCompiler.Json.Basic
import PascalCompiler.Text.Utf8

/-!
# JSON tokens

A JSON text is cut into tokens by a machine that reads it byte by byte. Bytes
between quotes need not be valid UTF-8: their text is read as `Utf8.decode`
says. Of the escapes for surrogates only a high one directly followed by a low
one stands for a character.

## Main definitions

* `Json.Token`, `Json.Lexeme`: a token, and a token with its place
* `Json.Scanner.step`: what the machine does with a byte
* `Json.tokens?`: the tokens of a text
-/

namespace PascalCompiler.Json

/-- A token. -/
inductive Token where
  | openBrace
  | closeBrace
  | openBracket
  | closeBracket
  | colon
  | comma
  | null
  | bool (value : Bool)
  | number (literal : String)
  | string (value : String)
  deriving DecidableEq

/-- A token and where it stands. -/
structure Lexeme where
  token : Token
  span : Span

/-! ### Numbers -/

/-- Is the list one or more digits? -/
def isDigits (cs : List Char) : Bool :=
  !cs.isEmpty && cs.all Char.isDigit

/-- Is the list empty or an exponent? -/
def isExponent : List Char → Bool
  | [] => true
  | e :: sign :: rest =>
    (e == 'e' || e == 'E') &&
      if sign == '+' || sign == '-' then isDigits rest else isDigits (sign :: rest)
  | _ => false

/-- Is the list empty or a fraction, an exponent, or one after the other? -/
def isFraction : List Char → Bool
  | '.' :: rest =>
    isDigits (rest.takeWhile Char.isDigit) && isExponent (rest.dropWhile Char.isDigit)
  | rest => isExponent rest

/-- Is the list a number without sign? Only zero starts with the digit zero. -/
def isUnsigned (cs : List Char) : Bool :=
  let whole := cs.takeWhile Char.isDigit
  isDigits whole && (whole.head? != some '0' || whole.length == 1) &&
    isFraction (cs.dropWhile Char.isDigit)

/-- Is the list a number? -/
def isNumber : List Char → Bool
  | '-' :: rest => isUnsigned rest
  | cs => isUnsigned cs

/-! ### Strings -/

/-- What stands between quotes: bytes, and code units given by their number. -/
inductive Piece where
  | byte (value : UInt8)
  | unit (code : Nat)

/-- Is the code unit the first half of a surrogate pair? -/
def isHigh (code : Nat) : Bool :=
  0xD800 ≤ code && code < 0xDC00

/-- Is the code unit the second half of a surrogate pair? -/
def isLow (code : Nat) : Bool :=
  0xDC00 ≤ code && code < 0xE000

/-- The character of a code unit by itself. -/
def unitChar (code : Nat) : Char :=
  if isHigh code || isLow code then Utf8.replacement else Char.ofNat code

/-- The character of a surrogate pair. -/
def pairChar (high low : Nat) : Char :=
  Char.ofNat (0x10000 + (high - 0xD800) * 0x400 + (low - 0xDC00))

/-- The bytes that the pieces of a string stand for. -/
def pieceBytes : List Piece → Bytes
  | [] => []
  | .byte b :: rest => b :: pieceBytes rest
  | .unit high :: .unit low :: rest =>
    if isHigh high && isLow low then
      String.utf8EncodeChar (pairChar high low) ++ pieceBytes rest
    else String.utf8EncodeChar (unitChar high) ++ pieceBytes (.unit low :: rest)
  | .unit code :: rest => String.utf8EncodeChar (unitChar code) ++ pieceBytes rest

/-- The text of the pieces of a string. -/
def pieceText (pieces : List Piece) : String :=
  Utf8.decode (pieceBytes pieces)

/-- The byte that a one-letter escape stands for. -/
def escapedByte? (letter : Char) : Option UInt8 :=
  match letter with
  | '"' => some 0x22
  | '\\' => some 0x5C
  | '/' => some 0x2F
  | 'b' => some 0x08
  | 'f' => some 0x0C
  | 'n' => some 0x0A
  | 'r' => some 0x0D
  | 't' => some 0x09
  | _ => none

/-- The value of a hexadecimal digit. -/
def hexDigit? (c : Char) : Option Nat :=
  if c.isDigit then some (c.toNat - '0'.toNat)
  else if 'a' ≤ c && c ≤ 'f' then some (c.toNat - 'a'.toNat + 10)
  else if 'A' ≤ c && c ≤ 'F' then some (c.toNat - 'A'.toNat + 10)
  else none

/-! ### The machine -/

/-- What the machine is in the middle of. Letters, digits and pieces read so
far are kept latest first, with the offset of the token's first byte. -/
inductive Mode where
  | between
  | word (start : Nat) (letters : List Char)
  | number (start : Nat) (digits : List Char)
  | string (start : Nat) (pieces : List Piece)
  /-- After a backslash. -/
  | escape (start : Nat) (pieces : List Piece)
  /-- After `\u`, with the number of digits to come and the value of those read. -/
  | code (start : Nat) (pieces : List Piece) (digits value : Nat)

/-- The machine after a number of bytes, with the tokens found so far, the
latest first. -/
structure Scanner where
  offset : Nat := 0
  mode : Mode := .between
  lexemes : List Lexeme := []

namespace Scanner

/-- The scanner in another mode, one byte further. -/
def goTo (scanner : Scanner) (mode : Mode) : Scanner :=
  { scanner with offset := scanner.offset + 1, mode }

/-- The scanner with one more token, which ends at the given offset. -/
def emit (scanner : Scanner) (token : Token) (start stop : Nat) : Scanner :=
  { scanner with lexemes := ⟨token, ⟨start, stop⟩⟩ :: scanner.lexemes }

/-- The token of a word. -/
def wordToken? (letters : List Char) : Option Token :=
  match String.ofList letters with
  | "null" => some .null
  | "true" => some (.bool true)
  | "false" => some (.bool false)
  | _ => none

/-- The token of a number. -/
def numberToken? (digits : List Char) : Option Token :=
  if isNumber digits then some (.number (String.ofList digits)) else none

/-- Ends a word or number in front of the next byte. Between tokens there is
nothing to end, and a string cannot end there. -/
def settle? (scanner : Scanner) : Option Scanner :=
  match scanner.mode with
  | .between => some scanner
  | .word start letters =>
    (wordToken? letters.reverse).map fun token =>
      { scanner.emit token start scanner.offset with mode := .between }
  | .number start digits =>
    (numberToken? digits.reverse).map fun token =>
      { scanner.emit token start scanner.offset with mode := .between }
  | _ => none

/-- The token that is a single character. -/
def punctuation? (c : Char) : Option Token :=
  match c with
  | '{' => some .openBrace
  | '}' => some .closeBrace
  | '[' => some .openBracket
  | ']' => some .closeBracket
  | ':' => some .colon
  | ',' => some .comma
  | _ => none

/-- Is the character one of those that stand between tokens? -/
def isSpace (c : Char) : Bool :=
  c == ' ' || c == '\t' || c == '\n' || c == '\r'

/-- Can the character stand in a number after its first? -/
def inNumber (c : Char) : Bool :=
  c.isDigit || c == '+' || c == '-' || c == '.' || c == 'e' || c == 'E'

/-- Reads a byte between tokens. -/
def begin? (scanner : Scanner) (c : Char) : Option Scanner :=
  match punctuation? c with
  | some token => some ((scanner.emit token scanner.offset (scanner.offset + 1)).goTo .between)
  | none =>
    if isSpace c then some (scanner.goTo .between)
    else if c == '"' then some (scanner.goTo (.string scanner.offset []))
    else if c == '-' || c.isDigit then some (scanner.goTo (.number scanner.offset [c]))
    else if c.isLower then some (scanner.goTo (.word scanner.offset [c]))
    else none

/-- Reads a byte. -/
def step (scanner : Scanner) (byte : UInt8) : Option Scanner :=
  let c := Char.ofNat byte.toNat
  match scanner.mode with
  | .between => scanner.begin? c
  | .word start letters =>
    if c.isLower then some (scanner.goTo (.word start (c :: letters)))
    else scanner.settle?.bind (·.begin? c)
  | .number start digits =>
    if inNumber c then some (scanner.goTo (.number start (c :: digits)))
    else scanner.settle?.bind (·.begin? c)
  | .string start pieces =>
    if c == '"' then
      some ((scanner.emit (.string (pieceText pieces.reverse)) start (scanner.offset + 1)).goTo
        .between)
    else if c == '\\' then some (scanner.goTo (.escape start pieces))
    else if byte < 0x20 then none
    else some (scanner.goTo (.string start (.byte byte :: pieces)))
  | .escape start pieces =>
    if c == 'u' then some (scanner.goTo (.code start pieces 4 0))
    else (escapedByte? c).map fun b => scanner.goTo (.string start (.byte b :: pieces))
  | .code start pieces digits value =>
    (hexDigit? c).map fun digit =>
      let value := value * 16 + digit
      if digits ≤ 1 then scanner.goTo (.string start (.unit value :: pieces))
      else scanner.goTo (.code start pieces (digits - 1) value)

end Scanner

/-- The tokens of a text, if it consists of tokens. -/
def tokens? (text : Bytes) : Option (List Lexeme) := do
  let scanner ← text.foldlM Scanner.step {}
  let scanner ← scanner.settle?
  return scanner.lexemes.reverse

end PascalCompiler.Json
