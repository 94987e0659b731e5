import PascalCompiler.Text.Numeral
import PascalCompiler.Text.Printable

/-!
# Quoted text

Text that stands in a message or an outline is put between double quotes. What
is not printable is escaped, so quoted text is always on one line.

## Main definitions

* `Quoted.escape`: how one character is written
* `Quoted.quote`: a text between double quotes
-/

namespace PascalCompiler.Quoted

/-- How one character is written between quotes. -/
def escape (c : Char) : String :=
  match c with
  | '"' => "\\\""
  | '\\' => "\\\\"
  | '\x07' => "\\a"
  | '\x08' => "\\b"
  | '\x0C' => "\\f"
  | '\n' => "\\n"
  | '\r' => "\\r"
  | '\t' => "\\t"
  | '\x0B' => "\\v"
  | _ =>
    if Printable.isPrintable c then c.toString
    else if c.toNat < 0x80 then "\\x" ++ Numeral.hex 2 c.toNat
    else if c.toNat < 0x10000 then "\\u" ++ Numeral.hex 4 c.toNat
    else "\\U" ++ Numeral.hex 8 c.toNat

/-- A text between double quotes. -/
def quote (text : String) : String :=
  "\"" ++ String.join (text.toList.map escape) ++ "\""

end PascalCompiler.Quoted
