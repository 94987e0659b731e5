import PascalCompiler.Text.Numeral

/-!
# What a name denotes

## Main definitions

* `NameKind`: constant, variable, procedure or function, or nothing known
* `NameKind.invocable`: is a name of this kind called?
-/

namespace PascalCompiler

/-- What a declared name denotes. -/
inductive NameKind where
  | unknown
  | constant
  | var
  | procedure
  | function
  /-- A number that belongs to none of the kinds. -/
  | other (number : Int)
  deriving DecidableEq

namespace NameKind

/-- The kind with the given number. -/
def ofNumber (number : Int) : NameKind :=
  if number = 0 then .unknown
  else if number = 1 then .constant
  else if number = 2 then .var
  else if number = 3 then .procedure
  else if number = 4 then .function
  else .other number

/-- The word for a kind. -/
def word : NameKind → String
  | .unknown => "unknown"
  | .constant => "constant"
  | .var => "variable"
  | .procedure => "procedure"
  | .function => "function"
  | .other number => "IdentifierKind(" ++ Numeral.decimal number ++ ")"

/-- Procedures and functions are called, anything else is read. -/
def invocable : NameKind → Bool
  | .procedure | .function => true
  | _ => false

end NameKind

end PascalCompiler
