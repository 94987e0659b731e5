import PascalCompiler.Script.Basic
import PascalCompiler.Script.Literal

/-!
# The text of scripts

Scripts are written on one line and with few blanks. Operands are written as
they are: what has to be grouped is in parentheses already.

## Main definitions

* `Script.Expr.print`, `Script.Stmt.print`: the text of an expression or statement
* `Script.print`: the text of a script
-/

namespace PascalCompiler.Script

/-- Texts separated by commas. -/
def commas (texts : List String) : String :=
  String.intercalate "," texts

namespace Expr

mutual

/-- The text of an expression. -/
def print : Expr → String
  | .text value => quote value
  | .code number => codeLiteral number
  | .integer value => Numeral.decimal value
  | .name word => word
  | .call callee args => callee ++ "(" ++ commas (printAll args) ++ ")"
  | .parens inner => "(" ++ print inner ++ ")"
  | .binary op left right => print left ++ op.spelling ++ print right
  | .array elements => "[" ++ commas (printAll elements) ++ "]"

/-- The texts of a list of expressions. -/
def printAll : List Expr → List String
  | [] => []
  | e :: rest => print e :: printAll rest

end

theorem printAll_eq (list : List Expr) : printAll list = list.map print := by
  induction list with
  | nil => rfl
  | cons e rest ih => rw [printAll, ih, List.map_cons]

end Expr

namespace Stmt

mutual

/-- The text of a statement. The handler of a `try` statement binds the
exception to `$e`, a name that no source name becomes. -/
def print : Stmt → String
  | .empty => ";"
  | .declare names => "var " ++ commas names ++ ";"
  | .define name value => "var " ++ name ++ "=" ++ value.print ++ ";"
  | .assign name value => name ++ "=" ++ value.print ++ ";"
  | .call callee args => callee ++ "(" ++ commas (Expr.printAll args) ++ ");"
  | .block true body => "\x7b" ++ printAll body ++ "\x7d"
  | .block false body => printAll body
  | .ifThen condition onTrue => "if (" ++ condition.print ++ ") " ++ print onTrue
  | .ifElse condition onTrue onFalse =>
    "if (" ++ condition.print ++ ") " ++ print onTrue ++ " else " ++ print onFalse
  | .tryCatch body handler =>
    "try \x7b" ++ printAll body ++ "\x7d catch ($e) \x7b" ++ printAll handler ++ "\x7d"
  | .tryFinally body cleanup =>
    "try \x7b" ++ printAll body ++ "\x7d finally \x7b" ++ printAll cleanup ++ "\x7d"
  | .function name params body =>
    "function " ++ name ++ "(" ++ commas (params.map commas) ++ ")" ++ print body

/-- The text of a list of statements, one after the other. -/
def printAll : List Stmt → String
  | [] => ""
  | s :: rest => print s ++ printAll rest

end

end Stmt

/-- The text of a script. -/
def print (script : List Stmt) : String :=
  Stmt.printAll script

end PascalCompiler.Script
