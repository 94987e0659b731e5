import PascalCompiler.Generation.Visiting
import PascalCompiler.Script.Basic
import PascalCompiler.Script.Name

/-!
# Generating expressions

Constants are not entered, all other expressions are.

## Main definitions

* `Generation.expr`: the script of an expression
-/

namespace PascalCompiler.Generation

open Visiting (look visit)

variable {m : Type → Type} [Visiting m]

/-- The script name of an identifier, which must be there and have a name. -/
def nameOf : Option Ident → m String
  | none => missing .identifier
  | some ident =>
    if ident.name = "" then missing .identifier else pure (Script.identifier ident.name)

/-- The script names of a list of identifiers. -/
def namesOf : List (Option Ident) → m (List String)
  | [] => pure []
  | ident :: rest => do
    let name ← nameOf ident
    let names ← namesOf rest
    return name :: names

/-- The identifier that a call is directed to. It is entered to be checked. -/
def callTarget : Option Ident → m Ident
  | none => missing .callTarget
  | some ident =>
    visit (.ident ident) do
      let _ ← nameOf (some ident)
      return ident

/-- The code point of a control string. -/
def controlCode (code : Int) : Except Reason Nat :=
  if code < 0 then .error (.negativeCode code)
  else if 0x10FFFF < code then .error (.codeBeyondUnicode code)
  else .ok code.toNat

mutual

/-- The script of an expression. A call without arguments becomes a call only if
its target can be invoked in the scope at hand, otherwise it reads a name. -/
def expr : Expr → m Script.Expr
  | .text _ value => pure (.text value)
  | .control position code =>
    match controlCode code with
    | .ok number => pure (.code number)
    | .error reason =>
      look fun context =>
        .error (.invalidValue (some (.expr (.control position code))) context.trace reason)
  | .integer _ value => pure (.integer value)
  | .parens position inner =>
    visit (.expr (.parens position inner)) do
      return .parens (← expr? inner)
  | .binary position op left right =>
    visit (.expr (.binary position op left right))
      (match Script.Operator.ofSource? op with
      | none => unsupported (.expr (.binary position op left right)) (.binaryOperator op)
      | some operator => do
        let left ← expr? left
        let right ← expr? right
        return .binary operator left right)
  | .call position target args =>
    visit (.expr (.call position target args)) do
      let ident ← callTarget target
      let callee := Script.identifier ident.name
      if args.isEmpty then
        let scope ← look Context.scope
        return if scope.canInvoke ident.name then .call callee [] else .name callee
      else
        return .call callee (← exprs args)
  | .setOf position elements =>
    visit (.expr (.setOf position elements)) do
      return .array (← setElements elements)

/-- The script of an expression that must be there. -/
def expr? : Option Expr → m Script.Expr
  | none => missing .expression
  | some e => expr e

/-- The scripts of a list of expressions. -/
def exprs : List (Option Expr) → m (List Script.Expr)
  | [] => pure []
  | e :: rest => do
    let first ← expr? e
    let others ← exprs rest
    return first :: others

/-- The script of an element of a set constructor, which must not be a range. -/
def setElement : Option Element → m Script.Expr
  | none => missing .setElement
  | some (.range range) => unsupported (.range range) .setRange
  | some (.expr e) => expr e

/-- The scripts of the elements of a set constructor. -/
def setElements : List (Option Element) → m (List Script.Expr)
  | [] => pure []
  | e :: rest => do
    let first ← setElement e
    let others ← setElements rest
    return first :: others

end

end PascalCompiler.Generation
