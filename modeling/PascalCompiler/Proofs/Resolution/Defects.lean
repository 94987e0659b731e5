import PascalCompiler.Proofs.Lexical.Refinement
import PascalCompiler.Proofs.Tree.Gap

/-!
# Where defects are

Every node has places for other nodes, some of which may be empty. The address of a
place tells which way to take at every node above it, so addresses in lexicographic order
are in the order in which a tree is read. The defects that resolution reports are those of
the places it looks at, in that order. Parameters of a forward header are no such places.

## Main definitions

* `Node.places`, `Node.defectAt`: the places of a node, and what is wrong with them
* `Resolution.Defective`: a place of a tree has a defect
* `Resolution.Examined`: the places that resolution looks at
* `Resolution.InOrder`: defects listed by their addresses

## Main results

* `Resolution.Row.inOrder`: the defects of a node are those of its places
* `File.inOrder_defects`: the defects of a file are listed in order
-/

namespace PascalCompiler

/-! ### Places -/

/-- The places of a part, each under the name of the part. -/
def Component.places : Component → List (String × Option Node)
  | .child key _ _ node => [(key, node)]
  | .list key _ nodes => nodes.map fun node => (key, node)
  | .comments value => value.named.map fun (key, comment) => (key, comment.map .comment)
  | .text .. | .integer .. => []

/-- The places of a node. -/
def Node.places (node : Node) : List (String × Option Node) :=
  node.parts.flatMap Component.places

namespace Resolution

/-- The defect of a place for a node that is missing. -/
def missingAt (key : String) (defect : Defect) (place : String × Option Node) : Option Defect :=
  if place.1 = key ∧ place.2.isNone then some defect else none

/-- Is there no identifier, or one without a name? -/
def lacksName : Option Node → Bool
  | none => true
  | some (.ident ident) => ident.name = ""
  | some _ => false

/-- The defect of a place for an identifier. -/
def unnamedAt (key : String) (owner : Node) (place : String × Option Node) : Option Defect :=
  if place.1 = key ∧ lacksName place.2 then some (.unnamed owner.position owner.kind) else none

end Resolution

open Resolution in
/-- What is wrong with a place of a node. -/
def Node.defectAt (owner : Node) (place : String × Option Node) : Option Resolution.Defect :=
  match owner with
  | .block _ | .interfacePart _ | .implementationPart _ =>
    missingAt "declarations" .noDeclaration place
  | .decl (.vars ..) => missingAt "list" .noVariableDeclaration place
  | .decl (.consts ..) => missingAt "list" .noConstantDeclaration place
  | .decl (.var _) | .param _ => unnamedAt "identifiers" owner place
  | .decl (.const _) => unnamedAt "identifier" owner place
  | .decl (.header _) | .decl (.routine _) =>
    if place.1 = "params" then missingAt "params" .noParameterDeclaration place
    else unnamedAt "identifier" owner place
  | _ => none

namespace Resolution

/-- The place with the address in the tree under a node has a defect, and all parts on the way
are examined. -/
inductive Defective (examined : Node → String → Prop) : Node → List Nat → Defect → Prop where
  | here {owner : Node} {i : Nat} {place : String × Option Node} {defect : Defect}
      (isPlace : owner.places[i]? = some place) (seen : examined owner place.1)
      (wrong : owner.defectAt place = some defect) : Defective examined owner [i] defect
  | inside {owner child : Node} {i : Nat} {key : String} {address : List Nat} {defect : Defect}
      (isPlace : owner.places[i]? = some (key, some child)) (seen : examined owner key)
      (inner : Defective examined child address defect) :
      Defective examined owner (i :: address) defect

/-- Resolution looks at all parts but the parameters of a forward header. -/
def Examined : Node → String → Prop
  | .decl (.header _), key => key ≠ "params"
  | _, _ => True

/-- The defects of the places with a property, in the order of their addresses. -/
def InOrder (p : List Nat → Defect → Prop) (defects : List Defect) : Prop :=
  ∃ sites : List (List Nat × Defect), sites.Pairwise (fun first second => first.1 < second.1) ∧
    (∀ address defect, (address, defect) ∈ sites ↔ p address defect) ∧
    sites.map Prod.snd = defects

/-! ### Places one after the other -/

section Rows

variable {examined : Node → String → Prop} {owner : Node}

/-- A place has a defect, or the tree in it has one at the address. -/
def DefectiveAt (examined : Node → String → Prop) (owner : Node) (place : String × Option Node)
    (address : List Nat) (defect : Defect) : Prop :=
  examined owner place.1 ∧ (address = [] ∧ owner.defectAt place = some defect ∨
    ∃ child, place.2 = some child ∧ Defective examined child address defect)

theorem defective_iff {address : List Nat} {defect : Defect} :
    Defective examined owner address defect ↔ ∃ i rest place, address = i :: rest ∧
      owner.places[i]? = some place ∧ DefectiveAt examined owner place rest defect := by
  constructor
  · rintro (⟨isPlace, seen, wrong⟩ | ⟨isPlace, seen, inner⟩)
    · exact ⟨_, [], _, rfl, isPlace, seen, .inl ⟨rfl, wrong⟩⟩
    · exact ⟨_, _, _, rfl, isPlace, seen, .inr ⟨_, rfl, inner⟩⟩
  · rintro ⟨i, rest, ⟨key, value⟩, rfl, isPlace, seen, ⟨rfl, wrong⟩ | ⟨child, rfl, inner⟩⟩
    · exact .here isPlace seen wrong
    · exact .inside isPlace seen inner

theorem InOrder.congr {p q : List Nat → Defect → Prop} {defects : List Defect}
    (listed : InOrder p defects) (same : ∀ address defect, p address defect ↔ q address defect) :
    InOrder q defects := by
  obtain ⟨sites, sorted, all, rfl⟩ := listed
  exact ⟨sites, sorted, fun address defect => (all address defect).trans (same address defect), rfl⟩

theorem InOrder.nil {p : List Nat → Defect → Prop} (none : ∀ address defect, ¬p address defect) :
    InOrder p [] :=
  ⟨[], .nil, fun address defect => ⟨nofun, fun holds => absurd holds (none address defect)⟩, rfl⟩

/-- Places of a node with their defects. -/
inductive Row (examined : Node → String → Prop) (owner : Node) :
    List (String × Option Node) → List Defect → Prop where
  | nil : Row examined owner [] []
  | cons {place : String × Option Node} {places : List (String × Option Node)}
      {own rest : List Defect} (first : InOrder (DefectiveAt examined owner place) own)
      (others : Row examined owner places rest) :
      Row examined owner (place :: places) (own ++ rest)

/-- The places from the number `start` on have their defects in order. -/
theorem Row.inOrder_from {places : List (String × Option Node)} {defects : List Defect}
    (row : Row examined owner places defects) (start : Nat) :
    InOrder (fun address defect => ∃ i rest place, address = (start + i) :: rest ∧
      places[i]? = some place ∧ DefectiveAt examined owner place rest defect) defects := by
  induction row generalizing start with
  | nil => exact .nil fun address defect ⟨_, _, _, _, isPlace, _⟩ => nomatch isPlace
  | @cons place places own others first _ ih =>
    obtain ⟨here, sortedHere, allHere, rfl⟩ := first
    obtain ⟨behind, sortedBehind, allBehind, rfl⟩ := ih (start + 1)
    refine ⟨here.map (fun site => (start :: site.1, site.2)) ++ behind, ?_, ?_, ?_⟩
    · refine List.pairwise_append.mpr ⟨List.pairwise_map.mpr ?_, sortedBehind, ?_⟩
      · exact sortedHere.imp fun less => List.cons_lt_cons_iff.mpr (.inr ⟨rfl, less⟩)
      · intro site isHere other isBehind
        obtain ⟨inner, -, rfl⟩ := List.mem_map.mp isHere
        obtain ⟨i, rest, _, address, -⟩ := (allBehind other.1 other.2).mp isBehind
        rw [address]
        exact List.cons_lt_cons_iff.mpr (.inl (by omega))
    · intro address defect
      rw [List.mem_append, allBehind]
      constructor
      · rintro (isHere | ⟨i, rest, other, rfl, isPlace, defective⟩)
        · obtain ⟨⟨rest, _⟩, isSite, same⟩ := List.mem_map.mp isHere
          cases same
          exact ⟨0, rest, place, rfl, rfl, (allHere rest _).mp isSite⟩
        · exact ⟨i + 1, rest, other, by congr 1; omega, isPlace, defective⟩
      · rintro ⟨i, rest, other, rfl, isPlace, defective⟩
        cases i with
        | zero =>
          cases isPlace
          exact .inl (List.mem_map.mpr ⟨(rest, defect), (allHere rest defect).mpr defective, rfl⟩)
        | succ i => exact .inr ⟨i, rest, other, by congr 1; omega, isPlace, defective⟩
    · rw [List.map_append, List.map_map]
      rfl

/-- The defects of a node are those of its places. -/
theorem Row.inOrder {defects : List Defect} (row : Row examined owner owner.places defects) :
    InOrder (Defective examined owner) defects := by
  refine (row.inOrder_from 0).congr fun address defect => ?_
  simp only [defective_iff, Nat.zero_add]

/-! ### The defects of one place -/

/-- The defect of a place in which there is no tree with defects. -/
theorem inOrder_defectAt {place : String × Option Node} (seen : examined owner place.1)
    (sound : ∀ child ∈ place.2, ∀ address defect, ¬Defective examined child address defect) :
    InOrder (DefectiveAt examined owner place) (owner.defectAt place).toList := by
  cases wrong : owner.defectAt place with
  | none =>
    refine .nil fun address defect => ?_
    rintro ⟨-, ⟨-, isDefect⟩ | ⟨child, isChild, inner⟩⟩
    · rw [wrong] at isDefect
      cases isDefect
    · exact sound child isChild address defect inner
  | some own =>
    refine ⟨[([], own)], List.pairwise_singleton _ _, fun address defect => ?_, rfl⟩
    rw [List.mem_singleton]
    constructor
    · intro same
      cases same
      exact ⟨seen, .inl ⟨rfl, wrong⟩⟩
    · rintro ⟨-, ⟨rfl, isDefect⟩ | ⟨child, isChild, inner⟩⟩
      · rw [wrong] at isDefect
        cases isDefect
        rfl
      · exact absurd inner (sound child isChild address defect)

/-- A place in which there is nothing. -/
theorem inOrder_absent {key : String} {defects : List Defect} (seen : examined owner key)
    (own : (owner.defectAt (key, none)).toList = defects) :
    InOrder (DefectiveAt examined owner (key, none)) defects := by
  rw [← own]
  exact inOrder_defectAt seen fun _ isChild => absurd isChild (Option.not_mem_none _)

/-- The defects of a place are those of the tree in it, if there is nothing wrong with the place
itself. -/
theorem inOrder_child {key : String} {child : Node} {defects : List Defect}
    (seen : examined owner key) (right : owner.defectAt (key, some child) = none)
    (inner : InOrder (Defective examined child) defects) :
    InOrder (DefectiveAt examined owner (key, some child)) defects := by
  refine inner.congr fun address defect => ?_
  constructor
  · intro defective
    exact ⟨seen, .inr ⟨child, rfl, defective⟩⟩
  · rintro ⟨-, ⟨-, wrong⟩ | ⟨_, same, defective⟩⟩
    · rw [right] at wrong
      cases wrong
    · cases same
      exact defective

end Rows

/-! ### Nodes that declare nothing -/

theorem mem_nodes_of_mem_places {part : Component} {key : String} {child : Node}
    (isPlace : (key, some child) ∈ part.places) : child ∈ part.nodes := by
  cases part with
  | child _ _ _ node =>
    obtain ⟨-, rfl⟩ := Prod.mk.inj (List.mem_singleton.mp isPlace)
    simp [Component.nodes]
  | list _ _ nodes =>
    obtain ⟨node, isNode, same⟩ := List.mem_map.mp isPlace
    obtain ⟨-, rfl⟩ := Prod.mk.inj same
    exact List.mem_filterMap.mpr ⟨_, isNode, rfl⟩
  | comments value =>
    obtain ⟨⟨_, comment⟩, isComment, same⟩ := List.mem_map.mp isPlace
    obtain ⟨-, isChild⟩ := Prod.mk.inj same
    obtain ⟨comment, rfl, rfl⟩ := Option.map_eq_some_iff.mp isChild
    have isThere : some comment ∈ value.named.map Prod.snd := List.mem_map.mpr ⟨_, isComment, rfl⟩
    exact List.mem_map.mpr ⟨comment, List.mem_filterMap.mpr ⟨_, isThere, rfl⟩, rfl⟩
  | text | integer => cases isPlace

theorem declares_of_defective {examined : Node → String → Prop} {node : Node}
    {address : List Nat} {defect : Defect} (defective : Defective examined node address defect) :
    node.declares := by
  induction defective with
  | @here owner i place defect isPlace seen wrong =>
    cases owner with
    | program | unit | interfacePart | implementationPart | block | decl | param => rfl
    | _ => cases wrong
  | @inside owner child i key address defect isPlace seen inner ih =>
    obtain ⟨part, isPart, isPlace⟩ := List.mem_flatMap.mp (List.mem_of_getElem? isPlace)
    cases declares : owner.declares with
    | true => rfl
    | false =>
      rw [declares_child declares part isPart child (mem_nodes_of_mem_places isPlace)] at ih
      cases ih

theorem not_defective {examined : Node → String → Prop} {node : Node}
    (quiet : node.declares = false) (address : List Nat) (defect : Defect) :
    ¬Defective examined node address defect := by
  intro defective
  rw [declares_of_defective defective] at quiet
  cases quiet

/-! ### Places of declarations -/

section Places

variable {owner : Node}

/-- A place for an identifier. -/
theorem inOrder_ident (owner : Node) (key : String) (seen : Examined owner key)
    (named : ∀ value, owner.defectAt (key, value) = unnamedAt key owner (key, value))
    (name : Option Ident) :
    InOrder (DefectiveAt Examined owner (key, name.map .ident))
      (identDefects owner.position owner.kind name) := by
  have own : (owner.defectAt (key, name.map .ident)).toList =
      identDefects owner.position owner.kind name := by
    rw [named, unnamedAt]
    cases name with
    | none => simp [lacksName, identDefects]
    | some ident =>
      by_cases empty : ident.name = "" <;> simp [lacksName, identDefects, empty]
  rw [← own]
  refine inOrder_defectAt seen fun child isChild => ?_
  obtain ⟨ident, -, rfl⟩ := Option.map_eq_some_iff.mp isChild
  exact not_defective rfl

/-- A place for a node that has defects of its own. -/
theorem inOrder_node {α : Type} {of : α → Node} (defects : Option α → List Defect)
    (owner : Node) (key : String) (seen : Examined owner key)
    (absent : (owner.defectAt (key, none)).toList = defects none)
    (right : ∀ a, owner.defectAt (key, some (of a)) = none)
    (inner : ∀ a, InOrder (Defective Examined (of a)) (defects (some a))) (value : Option α) :
    InOrder (DefectiveAt Examined owner (key, value.map of)) (defects value) := by
  cases value with
  | none => exact inOrder_absent seen absent
  | some a =>
    rw [Option.map_some]
    exact inOrder_child seen (right a) (inner a)

/-- A place with nothing wrong, for a node without declarations. -/
theorem inOrder_quiet {α : Type} {key : String} {of : α → Node}
    (right : ∀ value, owner.defectAt (key, value) = none)
    (quiet : ∀ a, (of a).declares = false) (value : Option α) :
    InOrder (DefectiveAt Examined owner (key, value.map of)) [] := by
  refine .nil fun address defect => ?_
  rintro ⟨-, ⟨-, wrong⟩ | ⟨child, isChild, inner⟩⟩
  · rw [right] at wrong
    cases wrong
  · obtain ⟨a, -, rfl⟩ := Option.map_eq_some_iff.mp isChild
    exact not_defective (quiet a) address defect inner

/-- One more place without defects. -/
theorem Row.quiet {α : Type} {key : String} {of : α → Node} {value : Option α}
    {places : List (String × Option Node)} {defects : List Defect}
    (right : ∀ value, owner.defectAt (key, value) = none)
    (quiet : ∀ a, (of a).declares = false) (row : Row Examined owner places defects) :
    Row Examined owner ((key, value.map of) :: places) defects :=
  .cons (inOrder_quiet right quiet value) row

/-- The places of a list have the defects of its elements. -/
theorem Row.list {α : Type} {key : String} {listing : Listing} {of : α → Node}
    {defects : Option α → List Defect} {values : List (Option α)}
    {places : List (String × Option Node)} {rest : List Defect}
    (each : ∀ value, InOrder (DefectiveAt Examined owner (key, value.map of)) (defects value))
    (row : Row Examined owner places rest) :
    Row Examined owner ((Component.listOf key listing of values).places ++ places)
      (values.flatMap defects ++ rest) := by
  rw [Component.listOf, Component.places, List.map_map]
  induction values with
  | nil => exact row
  | cons value values ih =>
    rw [List.map_cons, List.flatMap_cons, List.append_assoc]
    exact .cons (each value) ih

end Places

/-! ### Defects of declarations -/

theorem inOrder_varDefects (d : VarDecl) :
    InOrder (Defective Examined (.decl (.var d))) (varDefects (some d)) := by
  have names := inOrder_ident (.decl (.var d)) "identifiers" trivial fun _ => rfl
  have row : Row Examined (.decl (.var d)) (Node.decl (.var d)).places
      (varDefects (some d) ++ []) :=
    .list names (.quiet (fun _ => rfl) (fun _ => rfl) (.quiet (fun _ => rfl) (fun _ => rfl) .nil))
  rw [List.append_nil] at row
  exact row.inOrder

theorem inOrder_constDefects (d : ConstDecl) :
    InOrder (Defective Examined (.decl (.const d))) (constDefects (some d)) := by
  have name := inOrder_ident (.decl (.const d)) "identifier" trivial (fun _ => rfl) d.name
  have row : Row Examined (.decl (.const d)) (Node.decl (.const d)).places
      (constDefects (some d) ++ []) :=
    .cons name (.quiet (fun _ => rfl) (fun _ => rfl) (.quiet (fun _ => rfl) (fun _ => rfl) .nil))
  rw [List.append_nil] at row
  exact row.inOrder

theorem inOrder_paramGroup (group : ParamGroup) :
    InOrder (Defective Examined (.param group))
      (group.names.flatMap (identDefects group.position .valueParameter)) := by
  have names := inOrder_ident (.param group) "identifiers" trivial fun _ => rfl
  have row : Row Examined (.param group) (Node.param group).places
      (group.names.flatMap (identDefects group.position .valueParameter) ++ []) :=
    .list names (.quiet (fun _ => rfl) (fun _ => rfl) .nil)
  rw [List.append_nil] at row
  exact row.inOrder

theorem row_returnType {owner : Node} (right : ∀ value, owner.defectAt ("returnType", value) = none)
    (kind : RoutineKind) : Row Examined owner (kind.parts.flatMap Component.places) [] := by
  cases kind with
  | procedure => exact .nil
  | function result => exact .quiet right (fun _ => rfl) .nil

/-- Nothing but the name of a header is looked at. -/
theorem inOrder_headerDefects (h : Header) :
    InOrder (Defective Examined (.decl (.header h))) (declDefects (.header h)) := by
  have seen : "identifier" ≠ "params" := by decide
  have name := inOrder_ident (.decl (.header h)) "identifier" seen (fun _ => rfl) h.name
  have unseen (group : Option ParamGroup) :
      InOrder (DefectiveAt Examined (.decl (.header h)) ("params", group.map .param)) [] :=
    .nil fun _ _ defective => defective.1 rfl
  have row : Row Examined (.decl (.header h)) (Node.decl (.header h)).places
      (declDefects (.header h) ++ (h.params.flatMap (fun _ => []) ++ [])) :=
    .cons name (.list unseen (row_returnType (fun _ => rfl) h.kind))
  rw [List.flatMap_eq_nil_iff.mpr fun _ _ => rfl, List.append_nil, List.append_nil] at row
  exact row.inOrder

theorem paramDefects_eq (params : List (Option ParamGroup)) :
    paramDefects params = params.flatMap fun group => paramDefects [group] := by
  simp [paramDefects]

/-- The defects of a routine are those of its name, of its parameters and of its block. -/
theorem inOrder_routine (r : Routine)
    (inBlock : InOrder (DefectiveAt Examined (.decl (.routine r)) ("block", r.block.map .block))
      (blockDefects r.block)) :
    InOrder (Defective Examined (.decl (.routine r))) (routineDefects r) := by
  have name := inOrder_ident (.decl (.routine r)) "identifier" trivial (fun _ => rfl) r.name
  have groups (group : Option ParamGroup) : InOrder
      (DefectiveAt Examined (.decl (.routine r)) ("params", group.map .param))
      (paramDefects [group]) := by
    cases group with
    | none => exact inOrder_absent trivial rfl
    | some group =>
      have listed := inOrder_paramGroup group
      rw [← List.append_nil (List.flatMap _ _)] at listed
      exact inOrder_child trivial rfl listed
  have row : Row Examined (.decl (.routine r)) (Node.decl (.routine r)).places
      (identDefects r.position r.nodeKind r.name ++
        (r.params.flatMap (fun group => paramDefects [group]) ++ (blockDefects r.block ++ []))) :=
    .cons name (.list groups (.cons inBlock (row_returnType (fun _ => rfl) r.kind)))
  rw [List.append_nil, ← paramDefects_eq, ← List.append_assoc] at row
  obtain ⟨position, kind, name, params, block, scope⟩ := r
  rw [routineDefects]
  exact row.inOrder

mutual

/-- The defects of a declaration are listed in order. -/
theorem inOrder_declDefects :
    ∀ d : Decl, InOrder (Defective Examined (.decl d)) (declDefects d)
  | .var d => inOrder_varDefects d
  | .const d => inOrder_constDefects d
  | .vars position list => by
    have row : Row Examined (.decl (.vars position list)) (Node.decl (.vars position list)).places
        (list.flatMap varDefects ++ []) :=
      .list (inOrder_node varDefects _ _ trivial rfl (fun _ => rfl) inOrder_varDefects) .nil
    rw [List.append_nil] at row
    exact row.inOrder
  | .consts position list => by
    have row : Row Examined (.decl (.consts position list))
        (Node.decl (.consts position list)).places (list.flatMap constDefects ++ []) :=
      .list (inOrder_node constDefects _ _ trivial rfl (fun _ => rfl) inOrder_constDefects) .nil
    rw [List.append_nil] at row
    exact row.inOrder
  | .header h => inOrder_headerDefects h
  | .routine r => inOrder_routineDefects r

theorem inOrder_routineDefects :
    ∀ r : Routine, InOrder (Defective Examined (.decl (.routine r))) (routineDefects r)
  | ⟨_, _, _, _, none, _⟩ => inOrder_routine _ (inOrder_absent trivial rfl)
  | ⟨_, _, _, _, some b, _⟩ =>
    inOrder_routine _ (inOrder_child trivial rfl (inOrder_blockDefects b))

theorem inOrder_blockDefects :
    ∀ b : Block, InOrder (Defective Examined (.block b)) (blockDefects (some b))
  | ⟨position, decls, body⟩ => by
    have row : Row Examined (.block ⟨position, decls, body⟩)
        (Node.block ⟨position, decls, body⟩).places (defectsOf decls) :=
      row_defectsOf (.block ⟨position, decls, body⟩) trivial (fun _ => rfl)
        (.quiet (fun _ => rfl) (fun _ => rfl) .nil) decls
    rw [blockDefects]
    exact row.inOrder

/-- Declarations are listed under nodes of several kinds. -/
theorem row_defectsOf (owner : Node) {places : List (String × Option Node)}
    (seen : Examined owner "declarations")
    (missing : ∀ value, owner.defectAt ("declarations", value) =
      missingAt "declarations" .noDeclaration ("declarations", value))
    (row : Row Examined owner places []) :
    ∀ decls : List (Option Decl), Row Examined owner
      ((Component.listOf "declarations" .plain .decl decls).places ++ places) (defectsOf decls)
  | [] => row
  | none :: rest => by
    rw [defectsOf]
    have absent : (owner.defectAt ("declarations", none)).toList = [.noDeclaration] := by
      rw [missing]
      rfl
    exact .cons (inOrder_absent seen absent) (row_defectsOf owner seen missing row rest)
  | some d :: rest => by
    rw [defectsOf]
    exact .cons (inOrder_child seen (missing _) (inOrder_declDefects d))
      (row_defectsOf owner seen missing row rest)

end

/-! ### Defects of files -/

theorem inOrder_interfacePart (part : UnitPart) :
    InOrder (Defective Examined (.interfacePart part)) (defectsOf part.decls) := by
  have decls := row_defectsOf (.interfacePart part) trivial (fun _ => rfl) .nil part.decls
  have row : Row Examined (.interfacePart part) (Node.interfacePart part).places
      (defectsOf part.decls) :=
    .quiet (fun _ => rfl) (fun _ => rfl) decls
  exact row.inOrder

theorem inOrder_implementationPart (part : UnitPart) :
    InOrder (Defective Examined (.implementationPart part)) (defectsOf part.decls) := by
  have decls := row_defectsOf (.implementationPart part) trivial (fun _ => rfl) .nil part.decls
  have row : Row Examined (.implementationPart part) (Node.implementationPart part).places
      (defectsOf part.decls) :=
    .quiet (fun _ => rfl) (fun _ => rfl) decls
  exact row.inOrder

theorem inOrder_program (f : ProgramFile) :
    InOrder (Defective Examined (.program f)) (blockDefects f.block) := by
  have body : InOrder (DefectiveAt Examined (.program f) ("body", f.block.map .block))
      (blockDefects f.block) :=
    inOrder_node blockDefects (.program f) "body" trivial rfl (fun _ => rfl) inOrder_blockDefects
      f.block
  have comments : Row Examined (.program f) (Component.comments f.comments).places [] :=
    .quiet (fun _ => rfl) (fun _ => rfl) (.quiet (fun _ => rfl) (fun _ => rfl)
      (.quiet (fun _ => rfl) (fun _ => rfl) (.quiet (fun _ => rfl) (fun _ => rfl) .nil)))
  have row : Row Examined (.program f) (Node.program f).places (blockDefects f.block ++ []) :=
    .quiet (fun _ => rfl) (fun _ => rfl) (.quiet (fun _ => rfl) (fun _ => rfl)
      (.cons body comments))
  rw [List.append_nil] at row
  exact row.inOrder

theorem inOrder_unit (f : UnitFile) :
    InOrder (Defective Examined (.unit f)) (defectsOf f.decls) := by
  let partDefects (part : Option UnitPart) := defectsOf ((part.map UnitPart.decls).getD [])
  have first : InOrder
      (DefectiveAt Examined (.unit f) ("interface", f.interfacePart.map .interfacePart))
      (partDefects f.interfacePart) :=
    inOrder_node partDefects (.unit f) "interface" trivial rfl (fun _ => rfl) inOrder_interfacePart
      f.interfacePart
  have second : InOrder (DefectiveAt Examined (.unit f)
      ("implementation", f.implementationPart.map .implementationPart))
      (partDefects f.implementationPart) :=
    inOrder_node partDefects (.unit f) "implementation" trivial rfl (fun _ => rfl)
      inOrder_implementationPart f.implementationPart
  have row : Row Examined (.unit f) (Node.unit f).places
      (partDefects f.interfacePart ++ (partDefects f.implementationPart ++ [])) :=
    .quiet (fun _ => rfl) (fun _ => rfl) (.cons first (.cons second .nil))
  rw [List.append_nil, ← defectsOf_append] at row
  exact row.inOrder

end Resolution

open Resolution in
/-- The defects of a file are those of the places that resolution looks at, in the order in
which the file is read. -/
theorem File.inOrder_defects (file : File) :
    InOrder (Defective Examined file.node) file.defects := by
  rw [file.defects_eq]
  cases file with
  | program f =>
    have inOrder := inOrder_program f
    rw [blockDefects_eq] at inOrder
    exact inOrder
  | unit f => exact inOrder_unit f

end PascalCompiler
