import PascalCompiler.Generation.Expr

/-!
# Generating statements

Every statement is entered before its parts are generated.

## Main definitions

* `Generation.stmt`: the script of a statement
* `Generation.compound`: the script of a compound statement
-/

namespace PascalCompiler.Generation

open Visiting (visit)

variable {m : Type → Type} [Visiting m]

/-- The script name that an assignment is made to. -/
def assignmentTarget : Option Ident → m String
  | none => missing .assignmentTarget
  | some ident => nameOf (some ident)

mutual

/-- The script of a statement. -/
def stmt : Stmt → m Script.Stmt
  | .assign position target op source =>
    visit (.stmt (.assign position target op source)) do
      let name ← assignmentTarget target
      if op = ":=" then
        return .assign name (← expr? source)
      else
        unsupported (.stmt (.assign position target op source)) (.assignmentOperator op)
  | .call position target args =>
    visit (.stmt (.call position target args)) do
      let ident ← callTarget target
      return .call (Script.identifier ident.name) (← exprs args)
  | .compound value => compound value
  | .ifThen position condition onTrue none =>
    visit (.stmt (.ifThen position condition onTrue none)) do
      let condition ← expr? condition
      let onTrue ← branch onTrue
      return .ifThen condition onTrue
  | .ifThen position condition onTrue (some onFalse) =>
    visit (.stmt (.ifThen position condition onTrue (some onFalse))) do
      let condition ← expr? condition
      let onTrue ← branch onTrue
      let onFalse ← stmt onFalse
      return .ifElse condition onTrue onFalse
  | .tryExcept position body none =>
    visit (.stmt (.tryExcept position body none)) do
      return .tryCatch (← stmts body) []
  | .tryExcept position body (some (.all handlers)) =>
    visit (.stmt (.tryExcept position body (some (.all handlers)))) do
      let body ← stmts body
      let handlers ← stmts handlers
      return .tryCatch body handlers
  | .tryExcept position body (some (.clause clause)) =>
    visit (.stmt (.tryExcept position body (some (.clause clause))))
      (unsupported (.handler clause) .handlerClause)
  | .tryFinally position body cleanup =>
    visit (.stmt (.tryFinally position body cleanup)) do
      let body ← stmts body
      let cleanup ← stmts cleanup
      return .tryFinally body cleanup

/-- The script of what follows `then`, empty if nothing does. -/
def branch : Option Stmt → m Script.Stmt
  | none => pure .empty
  | some s => stmt s

/-- The script of a compound statement. Directly in a block it gets its braces from
the block. -/
def compound : Compound → m Script.Stmt
  | ⟨position, body⟩ =>
    visit (.stmt (.compound ⟨position, body⟩)) do
      let inBlock ← parentIs .block
      let body ← stmts body
      return .block (!inBlock) body

/-- The script of a statement that must be there. -/
def stmt? : Option Stmt → m Script.Stmt
  | none => missing .statement
  | some s => stmt s

/-- The scripts of a list of statements. -/
def stmts : List (Option Stmt) → m (List Script.Stmt)
  | [] => pure []
  | s :: rest => do
    let first ← stmt? s
    let others ← stmts rest
    return first :: others

end

end PascalCompiler.Generation
