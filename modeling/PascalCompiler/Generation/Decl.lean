import PascalCompiler.Generation.Stmt

/-!
# Generating declarations

Variables and constants become variables, routines become functions, and forward
headers nothing: functions can be called before they are declared.

## Main definitions

* `Generation.decl`: the scripts of a declaration
* `Generation.block`: the script of a block
-/

namespace PascalCompiler.Generation

open Visiting (visit)

variable {m : Type → Type} [Visiting m]

/-- The scripts of a variable declaration. Only the first of several variables
gets the initial value, the others are set to the first. -/
def varDecl : Option VarDecl → m (List Script.Stmt)
  | none => missing .variableDeclaration
  | some d =>
    visit (.decl (.var d))
      (match d.names, d.value with
      | [], _ => missing .identifier
      | names, none => do
        return [.declare (← namesOf names)]
      | first :: others, some value => do
        let name ← nameOf first
        let value ← expr value
        let others ← namesOf others
        return .define name value :: others.map fun other => .define other (.name name))

/-- The scripts of a list of variable declarations. -/
def varDecls : List (Option VarDecl) → m (List Script.Stmt)
  | [] => pure []
  | d :: rest => do
    let first ← varDecl d
    let others ← varDecls rest
    return first ++ others

/-- The script of a constant declaration. -/
def constDecl : Option ConstDecl → m (List Script.Stmt)
  | none => missing .constantDeclaration
  | some d =>
    visit (.decl (.const d))
      (match d.value with
      | none => missing .expression
      | some value => do
        let name ← nameOf d.name
        let value ← expr value
        return [.define name value])

/-- The scripts of a list of constant declarations. -/
def constDecls : List (Option ConstDecl) → m (List Script.Stmt)
  | [] => pure []
  | d :: rest => do
    let first ← constDecl d
    let others ← constDecls rest
    return first ++ others

/-- The script names of the parameters declared with one type. -/
def paramGroup : Option ParamGroup → m (List String)
  | none => missing .parameterDeclaration
  | some group => visit (.param group) (namesOf group.names)

/-- The script names of a parameter list, by group. -/
def paramGroups : List (Option ParamGroup) → m (List (List String))
  | [] => pure []
  | group :: rest => do
    let first ← paramGroup group
    let others ← paramGroups rest
    return first :: others

mutual

/-- The scripts of a declaration. -/
def decl : Decl → m (List Script.Stmt)
  | .var d => varDecl (some d)
  | .vars position list => visit (.decl (.vars position list)) (varDecls list)
  | .const d => constDecl (some d)
  | .consts position list => visit (.decl (.consts position list)) (constDecls list)
  | .header _ => pure []
  | .routine r => do
    return [← routine r]

/-- The script of a routine. -/
def routine : Routine → m Script.Stmt
  | ⟨position, kind, name, params, body, scope⟩ =>
    visit (.decl (.routine ⟨position, kind, name, params, body, scope⟩)) do
      let name ← nameOf name
      let params ← paramGroups params
      let body ← block? body
      return .function name params body

/-- The script of a block: its declarations, then its statements. Only the block of
a program has no braces. -/
def block : Block → m Script.Stmt
  | ⟨position, list, body⟩ =>
    visit (.block ⟨position, list, body⟩) do
      let ofProgram ← parentIs .program
      let declared ← decls list
      match body with
      | none => return .block (!ofProgram) declared
      | some body =>
        let done ← compound body
        return .block (!ofProgram) (declared ++ [done])

/-- The script of a block that must be there. -/
def block? : Option Block → m Script.Stmt
  | none => missing .block
  | some b => block b

/-- The scripts of a declaration that must be there. -/
def decl? : Option Decl → m (List Script.Stmt)
  | none => missing .declaration
  | some d => decl d

/-- The scripts of a list of declarations. -/
def decls : List (Option Decl) → m (List Script.Stmt)
  | [] => pure []
  | d :: rest => do
    let first ← decl? d
    let others ← decls rest
    return first ++ others

end

end PascalCompiler.Generation
