import PascalCompiler.Text.Numeral

/-!
# Positions

Where a node of a syntax tree was found in its source.

## Main definitions

* `Position`: file, offset, line and column
* `Position.isValid`: does it name a line?
* `Position.render`: how it stands in a message
-/

namespace PascalCompiler

/-- A place in a source file. The position with no file and all numbers zero
stands for an unknown place. -/
structure Position where
  /-- The name of the file. -/
  file : String := ""
  /-- The number of bytes in front of the place. -/
  offset : Int := 0
  /-- The line, from one. -/
  line : Int := 0
  /-- The column in bytes, from one. -/
  column : Int := 0
  deriving DecidableEq

namespace Position

/-- The position of which nothing is known. -/
def unknown : Position := {}

/-- A position is valid when it names a line. -/
def isValid (p : Position) : Bool :=
  0 < p.line

/-- `file:line:column`, without the file if it has no name and without the
column if it is zero. A position that is not valid shows its file, or a dash. -/
def render (p : Position) : String :=
  if p.isValid then
    (if p.file = "" then "" else p.file ++ ":") ++ Numeral.decimal p.line ++
      (if p.column = 0 then "" else ":" ++ Numeral.decimal p.column)
  else if p.file = "" then "-" else p.file

/-- The position and a colon in front of a message, if the position is valid. -/
def label (p : Position) (message : String) : String :=
  if p.isValid then p.render ++ ": " ++ message else message

end Position

end PascalCompiler
