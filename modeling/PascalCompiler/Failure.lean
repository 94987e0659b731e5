import PascalCompiler.Compile
import PascalCompiler.Document.Decode
import PascalCompiler.Layout.Line

/-!
# Failures

What can keep a document from becoming a laid-out script, and how it is told.

## Main definitions

* `Failure`: the failures
* `Failure.list?`: the texts of a failure that stands for several errors
* `Failure.message`, `Failure.detail`: the text of a failure
-/

namespace PascalCompiler

/-- What keeps a document from becoming a laid-out script. -/
inductive Failure where
  /-- No file can be read from the document with the given name. -/
  | document (name : String) (error : Document.Error)
  /-- Declarations of a file have defects. -/
  | resolution (defects : List Resolution.Defect)
  /-- No script can be generated for a file. -/
  | generation (error : GenerationError)
  /-- A script cannot be laid out. -/
  | layout (error : Layout.Error)
  /-- There is no file. -/
  | noFile

/-- Texts one below the other. -/
def joinLines (texts : List Bytes) : Bytes :=
  List.intercalate [Bytes.lineFeed] texts

namespace Failure

/-- A compile error as a failure. -/
def ofCompile : CompileError → Failure
  | .resolution defects => .resolution defects
  | .generation error => .generation error

/-- The texts of a failure that is a list of errors. -/
def list? : Failure → Option (List Bytes)
  | .document name (.defects list) => some (list.map (Document.Defect.message name))
  | .resolution defects => some (defects.map fun defect => .ofString defect.message)
  | .layout (.faultAt line column fault) =>
    some [.ofString (Layout.Error.message (.faultAt line column fault))]
  | _ => none

/-- The text of a failure. -/
def message : Failure → Bytes
  | .document name error => joinLines (error.messages name)
  | .resolution defects => joinLines (defects.map fun defect => .ofString defect.message)
  | .generation error => .ofString error.message
  | .layout error => .ofString error.message
  | .noFile => .ofString "unexpected file AST node: <nil>"

/-- The text of a failure, with the node at fault if there is one. -/
def detail : Failure → Bytes
  | .generation error => .ofString error.detail
  | failure => failure.message

end Failure

end PascalCompiler
