import PascalCompiler.Generation.File
import PascalCompiler.Resolution.Basic

/-!
# Compiling files

A file is compiled by resolving its names and generating its script. If a
declaration has a defect, nothing is generated.

## Main definitions

* `CompileError`: why a file cannot be compiled
* `File.compile`: the text of the script of a file
-/

namespace PascalCompiler

/-- Why a file cannot be compiled. -/
inductive CompileError where
  | resolution (defects : List Resolution.Defect)
  | generation (error : GenerationError)

/-- The text of the script of a file. -/
def File.compile (file : File) : Except CompileError String :=
  if file.defects.isEmpty then file.resolve.generate.mapError .generation
  else .error (.resolution file.defects)

end PascalCompiler
