import PascalCompiler.Json.Basic
import PascalCompiler.Text.Numeral

/-!
# Paths in a document

## Main definitions

* `Path`: the way from the root of a document to one of its values
* `Path.render`: a path as written in messages, such as `$.body.list[2]`
-/

namespace PascalCompiler.Document

/-- The way from the root of a document to one of its values. -/
inductive Path where
  /-- To the document itself. -/
  | root
  /-- To a member of the value at `path`. -/
  | member (path : Path) (name : String)
  /-- To an item of the value at `path`. -/
  | index (path : Path) (position : Nat)
  deriving DecidableEq

/-- A path as written in messages. -/
def Path.render : Path → String
  | .root => "$"
  | .member path name => path.render ++ "." ++ name
  | .index path position => path.render ++ "[" ++ Numeral.decimal position ++ "]"

end PascalCompiler.Document
