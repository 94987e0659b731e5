import PascalCompiler.Resolution.Defect
import PascalCompiler.Scope.Forest

/-!
# Name resolution

Resolution goes through the declarations of a file once, in source order. It opens
a level for the file and one for every routine, inside the level that the routine
is declared at, and declares each name at its level when it gets there. What is
attached to a file or routine is its level, and the scope of the level is read when
the file is done. So the names that are declared around a routine after it are in
its scope as well. Scopes attached before are replaced.

A declaration that is missing or lacks a name is reported, and the rest of the file
is resolved nevertheless.

## Main definitions

* `Resolution.Progress`: the levels and defects so far
* `Resolution.Resolver`: the steps of a resolution
* `File.resolve`: a file with scopes attached
* `File.defects`: the defects of its declarations
-/

namespace PascalCompiler

/-- What the name of a routine denotes. -/
def RoutineKind.nameKind : RoutineKind → NameKind
  | .procedure => .procedure
  | .function _ => .function

namespace Resolution

/-- How far a resolution has come. -/
structure Progress where
  /-- The levels opened so far, with the names declared so far. -/
  forest : Forest := {}
  /-- The defects found so far. -/
  defects : List Defect := []

/-- A step of a resolution. -/
abbrev Resolver : Type → Type :=
  StateM Progress

namespace Resolver

/-- Adds a defect to those found so far. -/
def report (defect : Defect) : Resolver Unit :=
  modify fun progress => { progress with defects := progress.defects ++ [defect] }

/-- Opens a level and gives its number. -/
def openLevel (parent : Option Nat) : Resolver Nat :=
  modifyGet fun progress =>
    let (forest, number) := progress.forest.openLevel parent
    (number, { progress with forest })

/-- Declares an identifier at a level, for a node of the given kind. The node is
reported if it has no identifier or one without a name. -/
def add (position : Position) (node : Kind) (kind : NameKind) (level : Nat) :
    Option Ident → Resolver Unit
  | none => report (.unnamed position node)
  | some ident =>
    if ident.name = "" then report (.unnamed position node)
    else modify fun progress =>
      { progress with forest := progress.forest.declare level ident.name kind }

/-- Declares the names of a variable declaration. -/
def varDecl (level : Nat) : Option VarDecl → Resolver Unit
  | none => report .noVariableDeclaration
  | some d => d.names.forM (add d.position .variableDeclaration .var level)

/-- Declares the name of a constant declaration. -/
def constDecl (level : Nat) : Option ConstDecl → Resolver Unit
  | none => report .noConstantDeclaration
  | some d => add d.position .constantDeclaration .constant level d.name

/-- Declares the parameters of a group. -/
def paramGroup (level : Nat) : Option ParamGroup → Resolver Unit
  | none => report .noParameterDeclaration
  | some group => group.names.forM (add group.position .valueParameter .var level)

mutual

/-- Resolves a declaration at a level. The result is the declaration with the scopes
that the levels have in the end. -/
def decl (level : Nat) : Decl → Resolver (Forest → Decl)
  | .var d => do
    varDecl level (some d)
    return fun _ => .var d
  | .vars position list => do
    list.forM (varDecl level)
    return fun _ => .vars position list
  | .const d => do
    constDecl level (some d)
    return fun _ => .const d
  | .consts position list => do
    list.forM (constDecl level)
    return fun _ => .consts position list
  | .header h => do
    add h.position h.nodeKind h.kind.nameKind level h.name
    return fun _ => .header h
  | .routine r => do
    let attached ← routine level r
    return fun forest => .routine (attached forest)

/-- Resolves a routine, which gets a level of its own. Its name is declared around it. -/
def routine (level : Nat) : Routine → Resolver (Forest → Routine)
  | ⟨position, kind, name, params, block, scope⟩ => do
    let node := Routine.nodeKind ⟨position, kind, name, params, block, scope⟩
    add position node kind.nameKind level name
    let own ← openLevel (some level)
    params.forM (paramGroup own)
    let attached ← block? own block
    return fun forest =>
      ⟨position, kind, name, params, attached forest, forest.scope? own⟩

/-- Resolves the declarations of a block that may be absent. -/
def block? (level : Nat) : Option Block → Resolver (Forest → Option Block)
  | none => return fun _ => none
  | some ⟨position, list, body⟩ => do
    let attached ← decls level list
    return fun forest => some ⟨position, attached forest, body⟩

/-- Resolves a list of declarations. -/
def decls (level : Nat) : List (Option Decl) → Resolver (Forest → List (Option Decl))
  | [] => return fun _ => []
  | none :: rest => do
    report .noDeclaration
    let others ← decls level rest
    return fun forest => none :: others forest
  | some d :: rest => do
    let first ← decl level d
    let others ← decls level rest
    return fun forest => some (first forest) :: others forest

end

/-- Resolves the declarations of a part of a unit that may be absent. -/
def unitPart (level : Nat) : Option UnitPart → Resolver (Forest → Option UnitPart)
  | none => return fun _ => none
  | some part => do
    let attached ← decls level part.decls
    return fun forest => some { part with decls := attached forest }

/-- Resolves a file, which gets a level inside no other. -/
def file : File → Resolver (Forest → File)
  | .program f => do
    let level ← openLevel none
    let block ← block? level f.block
    return fun forest =>
      .program { f with block := block forest, scope := forest.scope? level }
  | .unit f => do
    let level ← openLevel none
    let interfacePart ← unitPart level f.interfacePart
    let implementationPart ← unitPart level f.implementationPart
    return fun forest =>
      .unit
        { f with
          interfacePart := interfacePart forest
          implementationPart := implementationPart forest
          scope := forest.scope? level }

end Resolver

end Resolution

namespace File

/-- A file with a scope attached to it and to every routine in it. -/
def resolve (file : File) : File :=
  let (attached, progress) := (Resolution.Resolver.file file).run {}
  attached progress.forest

/-- The defects of the declarations of a file, in the order in which they are found. -/
def defects (file : File) : List Resolution.Defect :=
  ((Resolution.Resolver.file file).run {}).2.defects

end File

end PascalCompiler
