import Mathlib.Data.List.ReduceOption
import PascalCompiler.Tree.Node

/-!
# Parts of nodes and well-formed trees

Every kind of node has its parts: other nodes, lists of nodes, texts and
integers, each under the name it has in documents. The table `Node.parts` lists
them and says which of them a complete tree must have, so that properties of
whole trees are stated once and not once per kind.

A tree is well-formed when no part that it must have is missing, no list has a
gap, every variable declaration declares something, nothing carries a scope, and
all positions are unknown or lie in the tree's file.

## Main definitions

* `Component`, `Node.parts`: the parts of a node
* `Node.children`: the nodes directly under a node
* `Component.Complete`: nothing is missing from a part
* `Node.WellFormed`: nothing is missing from a tree
* `Node.Within`: the nodes of the tree under a node
* `Node.Holds`: a part that is there if the tree is well-formed
-/

namespace PascalCompiler

/-- What may stand in a list of nodes. -/
inductive Listing where
  /-- Nodes and nothing else. -/
  | plain
  /-- At least one node. -/
  | nonempty
  /-- Nodes, with nothing standing for an empty statement or element. -/
  | sparse
  /-- As in a sparse list, which is told from no list when it is empty. -/
  | bracketed
  deriving DecidableEq

/-- A part of a node, under its name in documents and other names that may be
used instead. -/
inductive Component where
  /-- A node, which must be there if it is needed. -/
  | child (key : String) (aliases : List String) (needed : Bool) (node : Option Node)
  | list (key : String) (listing : Listing) (nodes : List (Option Node))
  /-- A text, which may be left out of a document if it is not needed. -/
  | text (key : String) (aliases : List String) (needed : Bool) (value : String)
  | integer (key : String) (value : Int)
  /-- The comments of a program. -/
  | comments (value : ProgramComments)

namespace Component

/-- A node that may be missing. -/
def optional {α : Type} (key : String) (node : α → Node) (value : Option α) : Component :=
  .child key [] false (value.map node)

/-- A node that must be there. -/
def mandatory {α : Type} (key : String) (node : α → Node) (value : Option α) : Component :=
  .child key [] true (value.map node)

/-- A list of nodes. -/
def listOf {α : Type} (key : String) (listing : Listing) (node : α → Node)
    (values : List (Option α)) : Component :=
  .list key listing (values.map (·.map node))

/-- What follows `except`. -/
def handlers : Option Handlers → Component
  | none => .child "handlers" [] false none
  | some (.all body) => listOf "handlers" .bracketed .stmt body
  | some (.clause value) => .child "handlers" [] false (some (.handler value))

end Component

/-- An element of a set constructor as a node. -/
def Element.node : Element → Node
  | .expr value => .expr value
  | .range value => .range value

/-- The parts of an expression. -/
def Expr.parts : Expr → List Component
  | .text _ value => [.text "value" [] false value]
  | .control _ value | .integer _ value => [.integer "value" value]
  | .parens _ inner => [.mandatory "expression" .expr inner]
  | .binary _ op left right =>
    [.text "op" ["operator"] true op, .mandatory "left" .expr left, .mandatory "right" .expr right]
  | .call _ target args => [.mandatory "target" .ident target, .listOf "params" .plain .expr args]
  | .setOf _ elements => [.listOf "list" .sparse Element.node elements]

/-- The parts of a statement. -/
def Stmt.parts : Stmt → List Component
  | .assign _ target op source =>
    [.child "target" ["identifier"] true (target.map .ident), .text "operator" [] true op,
      .mandatory "expression" .expr source]
  | .call _ target args => [.mandatory "target" .ident target, .listOf "params" .plain .expr args]
  | .compound value => [.listOf "list" .sparse .stmt value.body]
  | .ifThen _ condition onTrue onFalse =>
    [.mandatory "condition" .expr condition, .optional "trueBranch" .stmt onTrue,
      .optional "falseBranch" .stmt onFalse]
  | .tryExcept _ body handlers => [.listOf "body" .sparse .stmt body, .handlers handlers]
  | .tryFinally _ body cleanup =>
    [.listOf "body" .sparse .stmt body, .listOf "fin" .sparse .stmt cleanup]

/-- The parts that only a function has. -/
def RoutineKind.parts : RoutineKind → List Component
  | .procedure => []
  | .function result => [.optional "returnType" .type result]

/-- The parts of a declaration. -/
def Decl.parts : Decl → List Component
  | .var value =>
    [.listOf "identifiers" .nonempty .ident value.names, .optional "variableType" .type value.type,
      .optional "expression" .expr value.value]
  | .vars _ list => [.listOf "list" .sparse (fun value => .decl (.var value)) list]
  | .const value =>
    [.mandatory "identifier" .ident value.name, .optional "constantType" .type value.type,
      .mandatory "expression" .expr value.value]
  | .consts _ list => [.listOf "list" .sparse (fun value => .decl (.const value)) list]
  | .header value =>
    .mandatory "identifier" .ident value.name :: .listOf "params" .plain .param value.params ::
      value.kind.parts
  | .routine value =>
    .mandatory "identifier" .ident value.name :: .listOf "params" .plain .param value.params ::
      .optional "block" .block value.block :: value.kind.parts

/-- The comments of a program, each under its name. -/
def ProgramComments.named (comments : ProgramComments) : List (String × Option Comment) :=
  [("pre", comments.pre), ("uses", comments.uses), ("end", comments.final),
    ("post", comments.post)]

/-- The parts of a node. -/
def Node.parts : Node → List Component
  | .program file =>
    [.optional "header" .programHeader file.heading, .optional "uses" .uses file.uses,
      .mandatory "body" .block file.block, .comments file.comments]
  | .unit file =>
    [.optional "header" .unitHeader file.heading,
      .child "interface" ["interfacePart"] false (file.interfacePart.map .interfacePart),
      .child "implementation" ["implementationPart"] false
        (file.implementationPart.map .implementationPart)]
  | .programHeader value | .unitHeader value => [.optional "identifier" .ident value.name]
  | .interfacePart value | .implementationPart value =>
    [.optional "uses" .uses value.uses, .listOf "declarations" .plain .decl value.decls]
  | .uses value => [.listOf "list" .plain .ident value.units]
  | .comment value => [.text "content" [] false value.content]
  | .ident value => [.text "value" [] true value.name]
  | .type (.inbuilt _ name) => [.text "typeName" [] true name]
  | .type (.named _ name) => [.mandatory "typeName" .ident name]
  | .param value =>
    [.listOf "identifiers" .plain .ident value.names, .optional "paramType" .type value.type]
  | .block value =>
    [.listOf "declarations" .plain .decl value.decls,
      .mandatory "statements" (fun body => .stmt (.compound body)) value.body]
  | .decl value => value.parts
  | .stmt value => value.parts
  | .handler value =>
    [.optional "identifier" .ident value.name, .optional "exceptionType" .type value.type,
      .optional "statement" .stmt value.body]
  | .expr value => value.parts
  | .range value => [.mandatory "start" .expr value.start, .mandatory "end" .expr value.stop]

/-! ### Well-formed trees -/

/-- The position is unknown or lies in the file of that name. Offset, line and
column are 64-bit integers. -/
def Position.IsIn (file : String) (position : Position) : Prop :=
  position = .unknown ∨ position.file = file ∧ Numeral.fitsInt64 position.offset ∧
    Numeral.fitsInt64 position.line ∧ Numeral.fitsInt64 position.column

/-- Nothing is missing from a part, and its integer is a 64-bit one. -/
def Component.Complete : Component → Prop
  | .child _ _ needed node => needed → node.isSome
  | .list _ listing nodes => none ∉ nodes ∧ (listing = .nonempty → nodes ≠ [])
  | .integer _ value => Numeral.fitsInt64 value
  | .text .. | .comments _ => True

/-- The nodes that a part holds. -/
def Component.nodes : Component → List Node
  | .child _ _ _ node => node.toList
  | .list _ _ nodes => nodes.reduceOption
  | .comments value => (value.named.map Prod.snd).reduceOption.map .comment
  | .text .. | .integer .. => []

/-- The nodes directly under a node. -/
def Node.children (node : Node) : List Node :=
  node.parts.flatMap Component.nodes

/-- Nothing is missing from the tree under a node, nothing in it carries a scope
and all of its positions are unknown or lie in the file. -/
inductive Node.WellFormed (file : String) : Node → Prop where
  | mk {node : Node} (position : node.position.IsIn file) (unscoped : node.scope = none)
      (complete : ∀ part ∈ node.parts, part.Complete)
      (inner : ∀ part ∈ node.parts, ∀ child ∈ part.nodes, WellFormed file child) :
      WellFormed file node

/-! ### Nodes of a well-formed tree -/

/-- The nodes of the tree under a node, itself included. -/
inductive Node.Within (root : Node) : Node → Prop where
  | root : Within root root
  | child {node child : Node} {part : Component} (within : Within root node)
      (isPart : part ∈ node.parts) (isChild : child ∈ part.nodes) : Within root child

/-- A list of nodes that holds the root and with each node its children holds all
nodes of the tree. -/
theorem Node.Within.mem_of_closed {root node : Node} {nodes : List Node}
    (within : root.Within node) (isRoot : root ∈ nodes)
    (closed : ∀ node ∈ nodes, ∀ part ∈ node.parts, ∀ child ∈ part.nodes, child ∈ nodes) :
    node ∈ nodes := by
  induction within with
  | root => exact isRoot
  | child _ isPart isChild ih => exact closed _ ih _ isPart _ isChild

/-- All nodes of a well-formed tree are well-formed. -/
theorem Node.WellFormed.of_within {file : String} {root node : Node}
    (wellFormed : root.WellFormed file) (within : root.Within node) : node.WellFormed file := by
  induction within with
  | root => exact wellFormed
  | child _ isPart isChild ih =>
    obtain ⟨-, -, -, inner⟩ := ih
    exact inner _ isPart _ isChild

/-- If the value is there, its node is one of the tree. It is there if the tree is
well-formed. -/
structure Node.Holds {α : Type} (root : Node) (node : α → Node) (value : Option α) : Prop where
  within : ∀ a ∈ value, root.Within (node a)
  isSome : ∀ file, root.WellFormed file → value.isSome

theorem Node.Holds.some {α : Type} {root : Node} {node : α → Node} {a : α}
    (within : root.Within (node a)) : root.Holds node (some a) where
  within _ same := Option.some_inj.mp same ▸ within
  isSome _ _ := rfl

namespace Node.Within

variable {root parent : Node} {α : Type} {node : α → Node} {key : String}

/-- A part that may be missing. -/
theorem of_child (within : root.Within parent) {aliases : List String} {needed : Bool}
    {value : Option α} (isPart : .child key aliases needed (value.map node) ∈ parent.parts) :
    ∀ a ∈ value, root.Within (node a) := by
  rintro a rfl
  exact within.child isPart (List.mem_singleton_self _)

/-- A part that must be there. -/
theorem holds (within : root.Within parent) {aliases : List String} {value : Option α}
    (isPart : .child key aliases true (value.map node) ∈ parent.parts) :
    root.Holds node value where
  within := within.of_child isPart
  isSome file wellFormed := by
    obtain ⟨-, -, complete, -⟩ := wellFormed.of_within within
    exact Option.isSome_map ▸ complete _ isPart rfl

/-- The items of a list. -/
theorem holds_of_mem (within : root.Within parent) {listing : Listing} {values : List (Option α)}
    (isPart : .listOf key listing node values ∈ parent.parts) :
    ∀ value ∈ values, root.Holds node value := by
  intro value mem
  refine ⟨?_, fun file wellFormed => ?_⟩
  · rintro a rfl
    have isChild : node a ∈ (Component.listOf key listing node values).nodes :=
      List.mem_filterMap.mpr ⟨some (node a), List.mem_map.mpr ⟨some a, mem, rfl⟩, rfl⟩
    exact within.child isPart isChild
  · obtain ⟨-, -, complete, -⟩ := wellFormed.of_within within
    obtain ⟨full, -⟩ := complete _ isPart
    cases value with
    | none => exact absurd (List.mem_map.mpr ⟨none, mem, rfl⟩) full
    | some a => rfl

end Node.Within

end PascalCompiler
