import PascalCompiler.Document.Location
import PascalCompiler.Document.Path
import PascalCompiler.Text.Quoted
import PascalCompiler.Tree.Node

/-!
# Defects of a document

A document that does not spell a syntax tree has defects. Each says where in the
source the node at fault was found, or else names the document, where in the
document it stands, and what is wrong.

## Main definitions

* `Shape`, `Role`: what kind of value or node was expected
* `Cause`: what is wrong
* `Defect`: a cause with its place
* `Document.Error`: why no tree can be read from a document
-/

namespace PascalCompiler.Document

/-- A type of JSON values. -/
inductive Shape where
  | object
  | array
  | string
  deriving DecidableEq

/-- The words for a value of the type. -/
def Shape.words : Shape → String
  | .object => "an object"
  | .array => "an array"
  | .string => "a string"

/-- The name of the type that such a value is read into. -/
def Shape.typeName : Shape → String
  | .object => "map[string]jsontext.Value"
  | .array => "[]jsontext.Value"
  | .string => "string"

/-- The nodes that may stand somewhere: of one kind, or of one sort. -/
inductive Role where
  | kind (kind : Kind)
  | type
  | declaration
  | statement
  | expression
  | setElement
  deriving DecidableEq

/-- The words for such a node. -/
def Role.words : Role → String
  | .kind wanted => wanted.tag
  | .type => "a type"
  | .declaration => "a declaration"
  | .statement => "a statement"
  | .expression => "an expression"
  | .setElement => "a set element"

/-- What is wrong in a document. -/
inductive Cause where
  /-- The document is not a JSON text. -/
  | malformed
  /-- A value of another type was expected. -/
  | shape (expected : Shape) (found : String)
  /-- A location cannot be read. -/
  | location (fault : LocationFault)
  /-- An object has no tag. -/
  | noTag
  /-- An object has a tag that belongs to no kind of node. -/
  | unknownTag (tag : String)
  /-- A member or item is missing. -/
  | missing (what : String)
  /-- A variable declaration declares nothing. -/
  | noVariables
  /-- A value is not a 64-bit integer. -/
  | notInteger (written : Bytes)
  /-- A node of another kind was expected. -/
  | unexpected (expected : Role) (found : Kind)
  deriving DecidableEq

/-- The text of a cause. -/
def Cause.message : Cause → Bytes
  | .malformed => .ofString "expected an object: <syntax error>"
  | .shape expected found =>
    .ofString ("expected " ++ expected.words ++ ": json: cannot unmarshal " ++ found ++
      " into Go value of type " ++ expected.typeName)
  | .location fault => .ofString fault.message
  | .noTag => .ofString "missing node type"
  | .unknownTag tag => .ofString ("unknown node type " ++ Quoted.quote tag)
  | .missing what => .ofString ("missing " ++ what)
  | .noVariables => .ofString "variable declaration without identifiers"
  | .notInteger written => .ofString "expected an integer, got " ++ written
  | .unexpected expected found => .ofString ("expected " ++ expected.words ++ ", got " ++ found.tag)

/-- A cause with the position of the node at fault and its path in the document. -/
structure Defect where
  position : Position
  path : Path
  cause : Cause
  deriving DecidableEq

/-- The text of a defect in the document of the given name. The name stands in
for a position that is not valid. -/
def Defect.message (name : String) (defect : Defect) : Bytes :=
  let place := if defect.position.isValid then defect.position.render else name
  .ofString (place ++ ": " ++ defect.path.render ++ ": ") ++ defect.cause.message

/-- Why no tree can be read from a document. -/
inductive Error where
  /-- The document holds nothing. -/
  | empty
  /-- The document has defects. -/
  | defects (list : List Defect)
  /-- The document spells a node that is no file. -/
  | notFile (position : Position) (kind : Kind)

end PascalCompiler.Document
