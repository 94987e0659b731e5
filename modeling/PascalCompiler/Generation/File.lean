import PascalCompiler.Generation.Decl
import PascalCompiler.Script.Printer

/-!
# Generating files

## Main definitions

* `Generation.file`: going through a file
* `Generation.script`: the script of a file
* `File.generate`: its text
-/

namespace PascalCompiler

namespace Generation

section File

variable {m : Type → Type} [Visiting m]

/-- The scripts of a part of a unit, entered as the given node. A part that is
not there has none. -/
def unitPart (node : UnitPart → Node) : Option UnitPart → m (List Script.Stmt)
  | none => pure []
  | some part => Visiting.visit (node part) (decls part.decls)

/-- The scripts of a file, which has been entered already. -/
def file : File → m (List Script.Stmt)
  | .program f => do
    return [← block? f.block]
  | .unit f => do
    let interfaceStmts ← unitPart .interfacePart f.interfacePart
    let implementationStmts ← unitPart .implementationPart f.implementationPart
    return interfaceStmts ++ implementationStmts

end File

/-- The script of a file: the file is walked with a stack that has only the file on it. -/
def script (file : File) : Except GenerationError (List Script.Stmt) :=
  let walk : Walk (List Script.Stmt) := Generation.file file
  (walk (.root file.node)).1

end Generation

/-- The text of the script of a file. -/
def File.generate (file : File) : Except GenerationError String := do
  return Script.print (← Generation.script file)

end PascalCompiler
