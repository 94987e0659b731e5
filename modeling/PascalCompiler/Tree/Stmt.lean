import PascalCompiler.Tree.Expr

/-!
# Statements

## Main definitions

* `Stmt`: statements
* `Compound`: a statement sequence between `begin` and `end`
* `Handlers`, `HandlerClause`: the `except` part of a `try` statement
-/

namespace PascalCompiler

mutual

/-- A statement. -/
inductive Stmt where
  | assign (position : Position) (target : Option Ident) (op : String) (source : Option Expr)
  | call (position : Position) (target : Option Ident) (args : List (Option Expr))
  | compound (value : Compound)
  /-- Without `onTrue` the statement after `then` is empty, without `onFalse` there is no `else`. -/
  | ifThen (position : Position) (condition : Option Expr) (onTrue onFalse : Option Stmt)
  /-- Without `handlers` the `except` part is empty. -/
  | tryExcept (position : Position) (body : List (Option Stmt)) (handlers : Option Handlers)
  | tryFinally (position : Position) (body : List (Option Stmt)) (cleanup : List (Option Stmt))

/-- A statement sequence between `begin` and `end`. -/
structure Compound where
  position : Position
  body : List (Option Stmt)

/-- What follows `except`. -/
inductive Handlers where
  /-- A statement sequence that handles every exception. -/
  | all (body : List (Option Stmt))
  /-- A clause for exceptions of one type. -/
  | clause (value : HandlerClause)

/-- A clause `on name : type do body`. -/
structure HandlerClause where
  position : Position
  name : Option Ident
  type : Option TypeRef
  body : Option Stmt

end

end PascalCompiler
