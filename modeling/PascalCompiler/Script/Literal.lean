import PascalCompiler.Text.Numeral
import PascalCompiler.Text.Utf8

/-!
# Literals in scripts

## Main definitions

* `Script.quote`: a text as a string literal
* `Script.textLiteral`: the text of a byte string as a string literal
* `Script.codeLiteral`: one code point as a string literal
-/

namespace PascalCompiler.Script

/-- How one character is written in a string literal. Quotes, backslashes and
the characters that end a line are escaped. -/
def escape (c : Char) : String :=
  match c with
  | '\\' => "\\\\"
  | '"' => "\\\""
  | '\n' => "\\n"
  | '\r' => "\\r"
  | '\u2028' => "\\u2028"
  | '\u2029' => "\\u2029"
  | _ => c.toString

/-- A text as a string literal. -/
def quote (text : String) : String :=
  "\"" ++ String.join (text.toList.map escape) ++ "\""

/-- The text that a byte string is read as, as a string literal. -/
def textLiteral (bytes : Bytes) : String :=
  quote (Utf8.decode bytes)

/-- The surrogate pair of a code point beyond `0xFFFF`. -/
def surrogates (code : Nat) : Nat × Nat :=
  (0xD800 + (code - 0x10000) / 0x400, 0xDC00 + (code - 0x10000) % 0x400)

/-- One code point as a string literal, written by its number: as a byte, as a
code unit, or as a surrogate pair. -/
def codeLiteral (code : Nat) : String :=
  if code < 0x100 then "\"\\x" ++ Numeral.hex 2 code ++ "\""
  else if code < 0x10000 then "\"\\u" ++ Numeral.hex 4 code ++ "\""
  else
    "\"\\u" ++ Numeral.hex 4 (surrogates code).1 ++
      "\\u" ++ Numeral.hex 4 (surrogates code).2 ++ "\""

end PascalCompiler.Script
