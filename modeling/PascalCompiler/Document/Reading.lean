import PascalCompiler.Document.Defect

/-!
# Reading the parts of a document

A reading is what could be made of a part of a document together with the
defects met on the way. Reading goes on after a defect, so all of them are
found.

A view of a JSON value offers it as a node, and its items and members as views.

## Main definitions

* `Reading`: a result and the defects met
* `View`: a JSON value with the reading of its parts
* `Object`: an object of a document that spells a node, with readers for its members
-/

namespace PascalCompiler.Document

/-- What was made of a part of a document, and the defects met. -/
structure Reading (α : Type) where
  value : α
  defects : List Defect := []

namespace Reading

/-- Readings follow each other, and their defects add up. -/
instance : Monad Reading where
  pure value := ⟨value, []⟩
  bind reading next := ⟨(next reading.value).value, reading.defects ++ (next reading.value).defects⟩

/-- Notes a defect. -/
def report (position : Position) (path : Path) (cause : Cause) : Reading Unit :=
  ⟨(), [⟨position, path, cause⟩]⟩

end Reading

/-- A JSON value with the reading of its parts. -/
structure View where
  /-- The value itself. -/
  json : Json
  /-- The value as a node at a path. -/
  node : Path → Reading (Option Node)
  /-- The items, if the value is an array. -/
  items : List View
  /-- The members, if the value is an object. -/
  members : List (String × View)

/-- A member that may be absent, and its path. -/
structure Slot where
  path : Path
  view? : Option View

namespace Slot

/-- The node that a member spells, if it is there. -/
def node (slot : Slot) : Reading (Option Node) :=
  match slot.view? with
  | none => pure none
  | some view => view.node slot.path

end Slot

/-- An object of a document that spells a node. -/
structure Object where
  members : List (String × View)
  path : Path
  position : Position

namespace Object

/-- The value under a name, unless it is null. -/
def find? (object : Object) (name : String) : Option View :=
  (lookupLast name object.members).filter (!·.json.isNull)

/-- The member under the first of the names that has one. If none has, it would
be expected under `name`. -/
def slot (object : Object) (name : String) (aliases : List String) : Slot :=
  match (name :: aliases).findSome? fun n => (object.find? n).map (n, ·) with
  | some (found, view) => ⟨object.path.member found, some view⟩
  | none => ⟨object.path.member name, none⟩

/-- Notes a defect of the object, at the given path. -/
def report (object : Object) (path : Path) (cause : Cause) : Reading Unit :=
  Reading.report object.position path cause

/-- Takes a node for one that plays the given role, or notes that it does not. -/
def cast {α : Type} (role : Role) (as? : Node → Option α) (path : Path) :
    Option Node → Reading (Option α)
  | none => pure none
  | some node =>
    match as? node with
    | some value => pure (some value)
    | none => do
      Reading.report node.position path (.unexpected role node.kind)
      return none

/-- A member that may be absent. -/
def optional {α : Type} (object : Object) (name : String) (aliases : List String) (role : Role)
    (as? : Node → Option α) : Reading (Option α) := do
  let slot := object.slot name aliases
  cast role as? slot.path (← slot.node)

/-- A member that is missed under the given word if it is absent. -/
def mandatory {α : Type} (object : Object) (name : String) (aliases : List String) (word : String)
    (role : Role) (as? : Node → Option α) : Reading (Option α) := do
  let slot := object.slot name aliases
  if slot.view?.isNone then
    object.report slot.path (.missing word)
  cast role as? slot.path (← slot.node)

/-- The items of a member that is an array. An absent member has none. -/
def items (slot : Slot) : Reading (List View) :=
  match slot.view? with
  | none => pure []
  | some view =>
    match view.json with
    | .array .. => pure view.items
    | json => do
      Reading.report .unknown slot.path (.shape .array json.typeWord)
      return []

/-- The nodes of a list of items from the given index on. An item without a node
is left out, and missed if there is a word for it. -/
def castItems {α : Type} (object : Object) (path : Path) (word : Option String) (role : Role)
    (as? : Node → Option α) : Nat → List View → Reading (List α)
  | _, [] => pure []
  | index, item :: rest => do
    let place := path.index index
    let node ← item.node place
    if node.isNone then
      match word with
      | some word => object.report place (.missing word)
      | none => pure ()
    let value ← cast role as? place node
    let values ← castItems object path word role as? (index + 1) rest
    return value.toList ++ values

/-- The nodes of a member that is a list. -/
def list {α : Type} (object : Object) (name : String) (word : Option String) (role : Role)
    (as? : Node → Option α) : Reading (List α) := do
  let slot := object.slot name []
  castItems object slot.path word role as? 0 (← items slot)

/-- A member that is a text, empty if it is absent. -/
def text (object : Object) (name : String) (aliases : List String) (needed : Bool) :
    Reading String := do
  let slot := object.slot name aliases
  match slot.view? with
  | none =>
    if needed then
      object.report slot.path (.missing name)
    return ""
  | some view =>
    match view.json with
    | .string _ value => return value
    | json =>
      object.report slot.path (.shape .string json.typeWord)
      return ""

/-- The 64-bit integer that a number, or a string with a numeral, stands for. -/
def integer? : Json → Option Int
  | .number literal => Numeral.int64? literal
  | .string _ value => Numeral.int64? value
  | _ => none

/-- A member that is an integer. -/
def integer (object : Object) (document : Bytes) (name : String) : Reading Int := do
  let slot := object.slot name []
  match slot.view? with
  | none =>
    object.report slot.path (.missing name)
    return 0
  | some view =>
    match integer? view.json with
    | some value => return value
    | none =>
      object.report slot.path (.notInteger (view.json.written document))
      return 0

end Object

end PascalCompiler.Document
