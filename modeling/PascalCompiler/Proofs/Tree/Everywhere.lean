import PascalCompiler.Proofs.Tree.WellFormed

/-!
# Properties of all nodes

A property holds everywhere in a tree if it holds of its root and everywhere in what
the root is made of. There is one statement of this for each way to build a node, so
that a property of whole trees is followed through a tree in the way the tree is built.

## Main definitions

* `Node.All`: all nodes in a tree have a property

## Main results

* `Node.all_iff`: what it says of the root and of its children
* `all_parens`, `all_binary`, …: expressions
* `all_assign`, `all_ifThen`, …: statements
* `all_var`, `all_routine`, …: declarations
* `all_program`, `all_unit`: files
-/

namespace PascalCompiler

/-! ### Nodes and their children -/

/-- What is under a node of a tree is under the root. -/
theorem Node.Within.trans {root node inner : Node} (within : root.Within node)
    (under : node.Within inner) : root.Within inner := by
  induction under with
  | root => exact within
  | child _ isPart isChild ih => exact ih.child isPart isChild

/-- The nodes of a tree are the root and those under its children. -/
theorem Node.within_iff {root node : Node} :
    root.Within node ↔
      node = root ∨ ∃ part ∈ root.parts, ∃ child ∈ part.nodes, child.Within node := by
  constructor
  · intro within
    induction within with
    | root => exact .inl rfl
    | child _ isPart isChild ih =>
      rcases ih with rfl | ⟨part, isPart', child, isChild', within⟩
      · exact .inr ⟨_, isPart, _, isChild, .root⟩
      · exact .inr ⟨part, isPart', child, isChild', within.child isPart isChild⟩
  · rintro (rfl | ⟨part, isPart, child, isChild, within⟩)
    · exact .root
    · exact (Node.Within.root.child isPart isChild).trans within

/-- All nodes in the tree under a node have the property. -/
def Node.All (p : Node → Prop) (root : Node) : Prop :=
  ∀ node, root.Within node → p node

/-- A property of all nodes is one of the root and of what is under its children. -/
theorem Node.all_iff {p : Node → Prop} {root : Node} :
    root.All p ↔ p root ∧ ∀ part ∈ root.parts, ∀ child ∈ part.nodes, child.All p := by
  constructor
  · intro all
    refine ⟨all root .root, fun part isPart child isChild node within => ?_⟩
    exact all node ((Within.root.child isPart isChild).trans within)
  · rintro ⟨here, inside⟩ node within
    rcases within_iff.mp within with rfl | ⟨part, isPart, child, isChild, within⟩
    · exact here
    · exact inside part isPart child isChild node within

/-! ### Children by part -/

theorem forall_mem_child {α : Type} {key : String} {aliases : List String} {needed : Bool}
    {of : α → Node} {value : Option α} {q : Node → Prop} :
    (∀ child ∈ (Component.child key aliases needed (value.map of)).nodes, q child) ↔
      ∀ a ∈ value, q (of a) := by
  cases value <;> simp [Component.nodes]

theorem forall_mem_mandatory {α : Type} {key : String} {of : α → Node} {value : Option α}
    {q : Node → Prop} :
    (∀ child ∈ (Component.mandatory key of value).nodes, q child) ↔ ∀ a ∈ value, q (of a) := by
  cases value <;> simp [Component.mandatory, Component.nodes]

theorem forall_mem_listOf {α : Type} {key : String} {listing : Listing} {of : α → Node}
    {values : List (Option α)} {q : Node → Prop} :
    (∀ child ∈ (Component.listOf key listing of values).nodes, q child) ↔
      ∀ value ∈ values, ∀ a ∈ value, q (of a) := by
  constructor
  · intro each value mem a isSome
    have isNode : some (of a) ∈ values.map (·.map of) :=
      List.mem_map.mpr ⟨value, mem, by rw [isSome, Option.map_some]⟩
    exact each (of a) (List.mem_filterMap.mpr ⟨some (of a), isNode, rfl⟩)
  · intro each child mem
    obtain ⟨node, isNode, same⟩ := List.mem_filterMap.mp mem
    obtain ⟨value, isValue, rfl⟩ := List.mem_map.mp isNode
    obtain ⟨a, isSome, rfl⟩ := Option.map_eq_some_iff.mp same
    exact each value isValue a isSome

theorem forall_mem_text {key : String} {aliases : List String} {needed : Bool} {value : String}
    {q : Node → Prop} :
    (∀ child ∈ (Component.text key aliases needed value).nodes, q child) ↔ True :=
  iff_true_intro (List.forall_mem_nil q)

/-! ### All nodes of a tree -/

section All

variable {p : Node → Prop} {position : Position}

/-- A property holds everywhere if it follows from one that the children of a node have with
the node. -/
theorem all_of_closed {q : Node → Prop} {root : Node} (isRoot : q root)
    (closed : ∀ node, q node → ∀ part ∈ node.parts, ∀ child ∈ part.nodes, q child)
    (follows : ∀ node, q node → p node) : root.All p := by
  intro node within
  apply follows
  induction within with
  | root => exact isRoot
  | child _ isPart isChild ih => exact closed _ ih _ isPart _ isChild

/-- A property holds everywhere under a node without children if it holds there. -/
theorem all_of_leaf {node : Node} (leaf : ∀ part ∈ node.parts, part.nodes = []) :
    node.All p ↔ p node := by
  rw [Node.all_iff, and_iff_left_iff_imp]
  intro _ part isPart child isChild
  rw [leaf part isPart] at isChild
  cases isChild

theorem all_ident {ident : Ident} : (Node.ident ident).All p ↔ p (.ident ident) :=
  all_of_leaf (List.forall_mem_singleton.mpr rfl)

/-! ### Expressions -/

theorem all_text {value : String} :
    (Node.expr (.text position value)).All p ↔ p (.expr (.text position value)) :=
  all_of_leaf (List.forall_mem_singleton.mpr rfl)

theorem all_control {code : Int} :
    (Node.expr (.control position code)).All p ↔ p (.expr (.control position code)) :=
  all_of_leaf (List.forall_mem_singleton.mpr rfl)

theorem all_integer {value : Int} :
    (Node.expr (.integer position value)).All p ↔ p (.expr (.integer position value)) :=
  all_of_leaf (List.forall_mem_singleton.mpr rfl)

theorem all_parens {inner : Option Expr} :
    (Node.expr (.parens position inner)).All p ↔
      p (.expr (.parens position inner)) ∧ ∀ e ∈ inner, (Node.expr e).All p := by
  rw [Node.all_iff]
  simp only [Node.parts, Expr.parts, forall_mem_mandatory, List.forall_mem_cons, List.not_mem_nil,
    false_implies, implies_true, and_true]

theorem all_binary {op : String} {left right : Option Expr} :
    (Node.expr (.binary position op left right)).All p ↔
      p (.expr (.binary position op left right)) ∧ (∀ e ∈ left, (Node.expr e).All p) ∧
        ∀ e ∈ right, (Node.expr e).All p := by
  rw [Node.all_iff]
  simp only [Node.parts, Expr.parts, forall_mem_text, forall_mem_mandatory, List.forall_mem_cons,
    List.not_mem_nil, false_implies, implies_true, and_true, true_and]

theorem all_callExpr {target : Option Ident} {args : List (Option Expr)} :
    (Node.expr (.call position target args)).All p ↔
      p (.expr (.call position target args)) ∧ (∀ i ∈ target, p (.ident i)) ∧
        ∀ arg ∈ args, ∀ e ∈ arg, (Node.expr e).All p := by
  rw [Node.all_iff]
  simp only [Node.parts, Expr.parts, forall_mem_mandatory, forall_mem_listOf, all_ident,
    List.forall_mem_cons, List.not_mem_nil, false_implies, implies_true, and_true]

theorem all_setOf {elements : List (Option Element)} :
    (Node.expr (.setOf position elements)).All p ↔
      p (.expr (.setOf position elements)) ∧
        ∀ element ∈ elements, ∀ e ∈ element, e.node.All p := by
  rw [Node.all_iff]
  simp only [Node.parts, Expr.parts, forall_mem_listOf, List.forall_mem_cons, List.not_mem_nil,
    false_implies, implies_true, and_true]

/-! ### Statements -/

theorem all_assign {target : Option Ident} {op : String} {source : Option Expr} :
    (Node.stmt (.assign position target op source)).All p ↔
      p (.stmt (.assign position target op source)) ∧ (∀ i ∈ target, p (.ident i)) ∧
        ∀ e ∈ source, (Node.expr e).All p := by
  rw [Node.all_iff]
  simp only [Node.parts, Stmt.parts, forall_mem_child, forall_mem_text, forall_mem_mandatory,
    all_ident, List.forall_mem_cons, List.not_mem_nil, false_implies, implies_true, and_true,
    true_and]

theorem all_callStmt {target : Option Ident} {args : List (Option Expr)} :
    (Node.stmt (.call position target args)).All p ↔
      p (.stmt (.call position target args)) ∧ (∀ i ∈ target, p (.ident i)) ∧
        ∀ arg ∈ args, ∀ e ∈ arg, (Node.expr e).All p := by
  rw [Node.all_iff]
  simp only [Node.parts, Stmt.parts, forall_mem_mandatory, forall_mem_listOf, all_ident,
    List.forall_mem_cons, List.not_mem_nil, false_implies, implies_true, and_true]

theorem all_compound {body : List (Option Stmt)} :
    (Node.stmt (.compound ⟨position, body⟩)).All p ↔
      p (.stmt (.compound ⟨position, body⟩)) ∧ ∀ item ∈ body, ∀ s ∈ item, (Node.stmt s).All p := by
  rw [Node.all_iff]
  simp only [Node.parts, Stmt.parts, forall_mem_listOf, List.forall_mem_cons, List.not_mem_nil,
    false_implies, implies_true, and_true]

theorem all_ifThen {condition : Option Expr} {onTrue onFalse : Option Stmt} :
    (Node.stmt (.ifThen position condition onTrue onFalse)).All p ↔
      p (.stmt (.ifThen position condition onTrue onFalse)) ∧
        (∀ e ∈ condition, (Node.expr e).All p) ∧ (∀ s ∈ onTrue, (Node.stmt s).All p) ∧
          ∀ s ∈ onFalse, (Node.stmt s).All p := by
  rw [Node.all_iff]
  simp only [Node.parts, Stmt.parts, Component.mandatory, Component.optional, forall_mem_child,
    List.forall_mem_cons, List.not_mem_nil, false_implies, implies_true, and_true]

theorem all_tryExcept {body : List (Option Stmt)} {handlers : Option Handlers} :
    (Node.stmt (.tryExcept position body handlers)).All p ↔
      p (.stmt (.tryExcept position body handlers)) ∧
        (∀ item ∈ body, ∀ s ∈ item, (Node.stmt s).All p) ∧
          ∀ child ∈ (Component.handlers handlers).nodes, child.All p := by
  rw [Node.all_iff]
  simp only [Node.parts, Stmt.parts, forall_mem_listOf, List.forall_mem_cons, List.not_mem_nil,
    false_implies, implies_true, and_true]

theorem all_tryFinally {body cleanup : List (Option Stmt)} :
    (Node.stmt (.tryFinally position body cleanup)).All p ↔
      p (.stmt (.tryFinally position body cleanup)) ∧
        (∀ item ∈ body, ∀ s ∈ item, (Node.stmt s).All p) ∧
          ∀ item ∈ cleanup, ∀ s ∈ item, (Node.stmt s).All p := by
  rw [Node.all_iff]
  simp only [Node.parts, Stmt.parts, forall_mem_listOf, List.forall_mem_cons, List.not_mem_nil,
    false_implies, implies_true, and_true]

/-! ### Declarations -/

theorem all_var {d : VarDecl} :
    (Node.decl (.var d)).All p ↔
      p (.decl (.var d)) ∧ (∀ name ∈ d.names, ∀ i ∈ name, (Node.ident i).All p) ∧
        (∀ t ∈ d.type, (Node.type t).All p) ∧ ∀ e ∈ d.value, (Node.expr e).All p := by
  rw [Node.all_iff]
  simp only [Node.parts, Decl.parts, forall_mem_listOf, forall_mem_child, Component.optional,
    List.forall_mem_cons, List.not_mem_nil, false_implies, implies_true, and_true]

theorem all_vars {list : List (Option VarDecl)} :
    (Node.decl (.vars position list)).All p ↔
      p (.decl (.vars position list)) ∧ ∀ item ∈ list, ∀ d ∈ item, (Node.decl (.var d)).All p := by
  rw [Node.all_iff]
  simp only [Node.parts, Decl.parts, forall_mem_listOf, List.forall_mem_cons, List.not_mem_nil,
    false_implies, implies_true, and_true]

theorem all_const {d : ConstDecl} :
    (Node.decl (.const d)).All p ↔
      p (.decl (.const d)) ∧ (∀ i ∈ d.name, (Node.ident i).All p) ∧
        (∀ t ∈ d.type, (Node.type t).All p) ∧ ∀ e ∈ d.value, (Node.expr e).All p := by
  rw [Node.all_iff]
  simp only [Node.parts, Decl.parts, forall_mem_child, Component.optional, Component.mandatory,
    List.forall_mem_cons, List.not_mem_nil, false_implies, implies_true, and_true]

theorem all_consts {list : List (Option ConstDecl)} :
    (Node.decl (.consts position list)).All p ↔
      p (.decl (.consts position list)) ∧
        ∀ item ∈ list, ∀ d ∈ item, (Node.decl (.const d)).All p := by
  rw [Node.all_iff]
  simp only [Node.parts, Decl.parts, forall_mem_listOf, List.forall_mem_cons, List.not_mem_nil,
    false_implies, implies_true, and_true]

theorem all_header {h : Header} :
    (Node.decl (.header h)).All p ↔
      p (.decl (.header h)) ∧ (∀ i ∈ h.name, (Node.ident i).All p) ∧
        (∀ group ∈ h.params, ∀ g ∈ group, (Node.param g).All p) ∧
          ∀ part ∈ h.kind.parts, ∀ child ∈ part.nodes, child.All p := by
  rw [Node.all_iff]
  simp only [Node.parts, Decl.parts, forall_mem_listOf, forall_mem_mandatory, List.forall_mem_cons]

theorem all_routine {r : Routine} :
    (Node.decl (.routine r)).All p ↔
      p (.decl (.routine r)) ∧ (∀ i ∈ r.name, (Node.ident i).All p) ∧
        (∀ group ∈ r.params, ∀ g ∈ group, (Node.param g).All p) ∧
          (∀ b ∈ r.block, (Node.block b).All p) ∧
            ∀ part ∈ r.kind.parts, ∀ child ∈ part.nodes, child.All p := by
  rw [Node.all_iff]
  simp only [Node.parts, Decl.parts, forall_mem_listOf, forall_mem_child, Component.optional,
    Component.mandatory, List.forall_mem_cons]

theorem all_block {decls : List (Option Decl)} {body : Option Compound} :
    (Node.block ⟨position, decls, body⟩).All p ↔
      p (.block ⟨position, decls, body⟩) ∧
        (∀ item ∈ decls, ∀ d ∈ item, (Node.decl d).All p) ∧
          ∀ c ∈ body, (Node.stmt (.compound c)).All p := by
  rw [Node.all_iff]
  simp only [Node.parts, forall_mem_listOf, forall_mem_mandatory, List.forall_mem_cons,
    List.not_mem_nil, false_implies, implies_true, and_true]

/-! ### Files -/

theorem all_interfacePart {part : UnitPart} :
    (Node.interfacePart part).All p ↔
      p (.interfacePart part) ∧ (∀ u ∈ part.uses, (Node.uses u).All p) ∧
        ∀ item ∈ part.decls, ∀ d ∈ item, (Node.decl d).All p := by
  rw [Node.all_iff]
  simp only [Node.parts, forall_mem_listOf, forall_mem_child, Component.optional,
    List.forall_mem_cons, List.not_mem_nil, false_implies, implies_true, and_true]

theorem all_implementationPart {part : UnitPart} :
    (Node.implementationPart part).All p ↔
      p (.implementationPart part) ∧ (∀ u ∈ part.uses, (Node.uses u).All p) ∧
        ∀ item ∈ part.decls, ∀ d ∈ item, (Node.decl d).All p := by
  rw [Node.all_iff]
  simp only [Node.parts, forall_mem_listOf, forall_mem_child, Component.optional,
    List.forall_mem_cons, List.not_mem_nil, false_implies, implies_true, and_true]

theorem all_program {file : ProgramFile} :
    (Node.program file).All p ↔
      p (.program file) ∧ (∀ h ∈ file.heading, (Node.programHeader h).All p) ∧
        (∀ u ∈ file.uses, (Node.uses u).All p) ∧ (∀ b ∈ file.block, (Node.block b).All p) ∧
          ∀ child ∈ (Component.comments file.comments).nodes, child.All p := by
  rw [Node.all_iff]
  simp only [Node.parts, forall_mem_child, Component.optional, Component.mandatory,
    List.forall_mem_cons, List.not_mem_nil, false_implies, implies_true, and_true]

theorem all_unit {file : UnitFile} :
    (Node.unit file).All p ↔
      p (.unit file) ∧ (∀ h ∈ file.heading, (Node.unitHeader h).All p) ∧
        (∀ part ∈ file.interfacePart, (Node.interfacePart part).All p) ∧
          ∀ part ∈ file.implementationPart, (Node.implementationPart part).All p := by
  rw [Node.all_iff]
  simp only [Node.parts, forall_mem_child, Component.optional, List.forall_mem_cons,
    List.not_mem_nil, false_implies, implies_true, and_true]

end All

end PascalCompiler
