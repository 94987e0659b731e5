import PascalCompiler.Document.Node
import PascalCompiler.Json.Parser
import PascalCompiler.Text.Blank

/-!
# Reading files

## Main definitions

* `Document.decode`: the file that a document spells
* `Document.Error.messages`: why there is none
-/

namespace PascalCompiler.Document

/-- Does a text hold nothing, or nothing but null, between white space? -/
def isVoid (text : Bytes) : Bool :=
  let body := Blank.trim text
  body.isEmpty || body == .ofString "null"

/-- The file that a node is. -/
def fileOf : Option Node → Except Error File
  | some (.program file) => .ok (.program file)
  | some (.unit file) => .ok (.unit file)
  | some node => .error (.notFile node.position node.kind)
  | none => .error .empty

/-- The file that a document with the given name and text spells. -/
def decode (name : String) (text : Bytes) : Except Error File :=
  if isVoid text then .error .empty
  else
    match Json.parse? text with
    | none => .error (.defects [⟨.unknown, .root, .malformed⟩])
    | some json =>
      let reading := (view ⟨name, text⟩ json).node .root
      if reading.defects.isEmpty then fileOf reading.value else .error (.defects reading.defects)

namespace Error

/-- The texts of an error in the document with the given name. -/
def messages (name : String) : Error → List Bytes
  | .empty => [.ofString (name ++ ": empty document")]
  | .defects list => list.map (Defect.message name)
  | .notFile position kind =>
    let place := if position.isValid then position else { file := name }
    [.ofString (place.render ++ ": $: expected program or unit, got " ++ kind.tag)]

end Error

end PascalCompiler.Document
