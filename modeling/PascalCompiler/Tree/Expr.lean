import PascalCompiler.Text.Lowercase
import PascalCompiler.Tree.Position

/-!
# Expressions

Syntax trees may be incomplete: a member that a tree can lack is an `Option`,
and so is every element of a list.

## Main definitions

* `Ident`, `TypeRef`: names and declared types
* `Expr`: expressions
* `Element`, `Range`: elements of a set constructor
-/

namespace PascalCompiler

/-- A name as written in the source. -/
structure Ident where
  position : Position := .unknown
  name : String := ""
  deriving DecidableEq

/-- A declared type. -/
inductive TypeRef where
  /-- A predeclared type such as `Integer`. -/
  | inbuilt (position : Position) (name : String)
  /-- A reference to a type declared elsewhere. -/
  | named (position : Position) (name : Option Ident)
  deriving DecidableEq

mutual

/-- An expression. -/
inductive Expr where
  /-- A string constant, by its unquoted value. -/
  | text (position : Position) (value : String)
  /-- A control string, by the number of its character. -/
  | control (position : Position) (code : Int)
  /-- An integer constant. -/
  | integer (position : Position) (value : Int)
  /-- An expression in parentheses. -/
  | parens (position : Position) (inner : Option Expr)
  /-- Two operands joined by an operator. -/
  | binary (position : Position) (op : String) (left right : Option Expr)
  /-- A call. Without arguments it may also be the reading of a variable or constant. -/
  | call (position : Position) (target : Option Ident) (args : List (Option Expr))
  /-- A set constructor. -/
  | setOf (position : Position) (elements : List (Option Element))

/-- An element of a set constructor. -/
inductive Element where
  | expr (value : Expr)
  | range (value : Range)

/-- A range of set elements, from `start` to `stop`. -/
structure Range where
  position : Position
  start : Option Expr
  stop : Option Expr

end

namespace TypeRef

/-- The types every program may use without declaring them, in lower case. -/
def inbuiltNames : List String :=
  ["boolean", "byte", "cardinal", "char", "double", "extended", "int64", "integer", "real",
    "single", "string", "word"]

/-- Does the name, in any case, belong to a predeclared type? -/
def isInbuiltName (name : String) : Bool :=
  inbuiltNames.contains (Lowercase.lowerText name)

/-- The name of a type as written. -/
def name : TypeRef → String
  | .inbuilt _ name => name
  | .named _ (some ident) => ident.name
  | .named _ none => ""

/-- Where a type was found. -/
def position : TypeRef → Position
  | .inbuilt position _ | .named position _ => position

end TypeRef

end PascalCompiler
