import PascalCompiler.Text.Lowercase

/-!
# Scripts

The part of ECMAScript 5 that programs are turned into, as trees. Names are
script names already.

## Main definitions

* `Script.Operator`: binary operators, and which source operator becomes which
* `Script.Expr`, `Script.Stmt`: expressions and statements
-/

namespace PascalCompiler.Script

/-- A binary operator. -/
inductive Operator where
  | plus
  | equal
  | unequal
  | and
  deriving DecidableEq

namespace Operator

/-- How an operator is written. -/
def spelling : Operator → String
  | .plus => "+"
  | .equal => "==="
  | .unequal => "!=="
  | .and => "&&"

/-- The operator that a source operator, in any case, becomes. -/
def ofSource? (op : String) : Option Operator :=
  let key := Lowercase.lowerText op
  if key = "+" then some .plus
  else if key = "=" then some .equal
  else if key = "<>" then some .unequal
  else if key = "and" then some .and
  else none

end Operator

/-- An expression. -/
inductive Expr where
  /-- A string literal, by its value. -/
  | text (value : String)
  /-- A string literal of one code point, by its number. -/
  | code (number : Nat)
  | integer (value : Int)
  | name (name : String)
  | call (callee : String) (args : List Expr)
  | parens (inner : Expr)
  | binary (op : Operator) (left right : Expr)
  | array (elements : List Expr)

/-- A statement or function declaration. -/
inductive Stmt where
  | empty
  /-- Variables without values. -/
  | declare (names : List String)
  /-- A variable with its value. -/
  | define (name : String) (value : Expr)
  | assign (name : String) (value : Expr)
  | call (callee : String) (args : List Expr)
  /-- Statements in a row, in braces or without. -/
  | block (braces : Bool) (body : List Stmt)
  | ifThen (condition : Expr) (onTrue : Stmt)
  | ifElse (condition : Expr) (onTrue onFalse : Stmt)
  | tryCatch (body handler : List Stmt)
  | tryFinally (body cleanup : List Stmt)
  /-- A function, with the names of its parameters by group. Its body brings its
  own braces. -/
  | function (name : String) (params : List (List String)) (body : Stmt)

end PascalCompiler.Script
