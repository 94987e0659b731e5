import Mathlib.Data.List.Basic
import PascalCompiler.Proofs.Tree.WellFormed

/-!
# The shape of nodes

A node is its kind, its position, its scope and its parts. The kind says which parts there
are, and in which order: it is enough to look at the node of that kind that has nothing in it.
Only what follows `except` can be one node or a list of nodes.

## Main definitions

* `Kind.blank`: the node of a kind with nothing in it
* `Component.form`: a part without what it holds

## Main results

* `Node.blank_kind`: the kind of a node fixes the forms of its parts
* `Node.eq_of_parts`: nodes of a kind with the same position, scope and parts are the same
-/

namespace PascalCompiler

/-! ### Forms -/

/-- The node of a kind with nothing in it. What is no kind of node is shown as an empty name. -/
def Kind.blank : Kind → Node
  | .assignment => .stmt (.assign .unknown none "" none)
  | .binaryOp => .expr (.binary .unknown "" none none)
  | .block => .block ⟨.unknown, [], none⟩
  | .comment => .comment {}
  | .compoundStatement => .stmt (.compound ⟨.unknown, []⟩)
  | .constantDeclaration => .decl (.const {})
  | .constantDeclarationPart => .decl (.consts .unknown [])
  | .controlString => .expr (.control .unknown 0)
  | .exceptionHandlerClause => .handler ⟨.unknown, none, none, none⟩
  | .functionCall => .expr (.call .unknown none [])
  | .functionDeclaration => .decl (.routine ⟨.unknown, .function none, none, [], none, none⟩)
  | .functionHeader => .decl (.header { kind := .function none })
  | .identifier => .ident {}
  | .ifStatement => .stmt (.ifThen .unknown none none none)
  | .implementationPart => .implementationPart {}
  | .inbuiltType => .type (.inbuilt .unknown "")
  | .integerConstant => .expr (.integer .unknown 0)
  | .interfacePart => .interfacePart {}
  | .parens => .expr (.parens .unknown none)
  | .procedureDeclaration => .decl (.routine ⟨.unknown, .procedure, none, [], none, none⟩)
  | .procedureHeader => .decl (.header {})
  | .procedureStatement => .stmt (.call .unknown none [])
  | .program => .program {}
  | .programHeader => .programHeader {}
  | .range => .range ⟨.unknown, none, none⟩
  | .setConstructor => .expr (.setOf .unknown [])
  | .stringConstant => .expr (.text .unknown "")
  | .tryExcept => .stmt (.tryExcept .unknown [] none)
  | .tryFinally => .stmt (.tryFinally .unknown [] [])
  | .typeIdentifier => .type (.named .unknown none)
  | .unit => .unit {}
  | .unitHeader => .unitHeader {}
  | .usesClause => .uses {}
  | .valueParameter => .param {}
  | .variableDeclaration => .decl (.var {})
  | .variableDeclarationPart => .decl (.vars .unknown [])
  | .invalid | .other _ => .ident {}

/-- A part without what it holds. What is one node or a list in brackets is taken as one node. -/
def Component.form : Component → Component
  | .child key aliases needed _ => .child key aliases needed none
  | .list key .bracketed _ => .child key [] false none
  | .list key listing _ => .list key listing []
  | .text key aliases needed _ => .text key aliases needed ""
  | .integer key _ => .integer key 0
  | .comments _ => .comments {}

/-- Nodes of a kind have parts of the same forms and are built in the same way. -/
theorem Node.blank_kind (node : Node) :
    node.kind.blank.parts = node.parts.map Component.form ∧
      node.kind.blank.ctorIdx = node.ctorIdx := by
  cases node with
  | type type => cases type <;> exact ⟨rfl, rfl⟩
  | decl decl =>
    cases decl with
    | header value => rcases value with ⟨_, _ | _, _, _⟩ <;> exact ⟨rfl, rfl⟩
    | routine value => rcases value with ⟨_, _ | _, _, _, _, _⟩ <;> exact ⟨rfl, rfl⟩
    | _ => exact ⟨rfl, rfl⟩
  | stmt stmt =>
    cases stmt with
    | tryExcept _ body handlers => rcases handlers with _ | (_ | _) <;> exact ⟨rfl, rfl⟩
    | _ => exact ⟨rfl, rfl⟩
  | expr expr => cases expr <;> exact ⟨rfl, rfl⟩
  | _ => exact ⟨rfl, rfl⟩

/-! ### Nodes from their parts -/

section Parts

variable {α : Type} {of : α → Node} {key : String} {listing : Listing}

theorem optional_inj {value value' : Option α} (injective : ∀ a b, of a = of b → a = b) :
    Component.optional key of value = .optional key of value' ↔ value = value' := by
  simp [Component.optional, Option.map_inj_right injective]

theorem mandatory_inj {value value' : Option α} (injective : ∀ a b, of a = of b → a = b) :
    Component.mandatory key of value = .mandatory key of value' ↔ value = value' := by
  simp [Component.mandatory, Option.map_inj_right injective]

theorem listOf_inj {values values' : List (Option α)} (injective : ∀ a b, of a = of b → a = b) :
    Component.listOf key listing of values = .listOf key listing of values' ↔
      values = values' := by
  have options (a b : Option α) (same : a.map of = b.map of) : a = b :=
    (Option.map_inj_right injective).mp same
  simp [Component.listOf, List.map_inj_right options]

theorem Element.node_inj {first second : Element} : first.node = second.node ↔ first = second := by
  refine ⟨fun same => ?_, congrArg _⟩
  cases first <;> cases second <;> cases same <;> rfl

theorem handlers_inj {value value' : Option Handlers} :
    Component.handlers value = .handlers value' ↔ value = value' := by
  refine ⟨fun same => ?_, congrArg _⟩
  rcases value with _ | (body | clause)
  · rcases value' with _ | (body' | clause')
    · rfl
    · cases same
    · cases same
  · rcases value' with _ | (body' | clause')
    · cases same
    · obtain rfl := (listOf_inj fun _ _ => Node.stmt.inj).mp same
      rfl
    · cases same
  · rcases value' with _ | (body' | clause')
    · cases same
    · cases same
    · cases same
      rfl

end Parts

theorem Expr.eq_of_parts {first second : Expr} (kind : first.kind = second.kind)
    (position : first.position = second.position) (parts : first.parts = second.parts) :
    first = second := by
  cases first <;> cases second <;> cases kind
  all_goals
    cases position
    simp_all [Expr.parts, mandatory_inj, listOf_inj, Element.node_inj]

theorem Stmt.eq_of_parts {first second : Stmt} (kind : first.kind = second.kind)
    (position : first.position = second.position) (parts : first.parts = second.parts) :
    first = second := by
  cases first <;> cases second <;> cases kind
  case compound.compound value value' =>
    cases value
    cases value'
    cases position
    simp_all [Stmt.parts, listOf_inj]
  all_goals
    cases position
    simp_all [Stmt.parts, optional_inj, mandatory_inj, listOf_inj, handlers_inj,
      Option.map_inj_right]

theorem TypeRef.eq_of_parts {first second : TypeRef} (kind : first.kind = second.kind)
    (position : first.position = second.position)
    (parts : (Node.type first).parts = (Node.type second).parts) : first = second := by
  cases first <;> cases second <;> cases kind
  all_goals
    cases position
    simp_all [Node.parts, mandatory_inj]

theorem Decl.eq_of_parts {first second : Decl} (kind : first.kind = second.kind)
    (position : first.position = second.position)
    (scope : (Node.decl first).scope = (Node.decl second).scope)
    (parts : first.parts = second.parts) : first = second := by
  rcases first with ⟨_, _, _, _⟩ | _ | ⟨_, _, _, _⟩ | _ | ⟨_, _ | _, _, _⟩ |
      ⟨_, _ | _, _, _, _, _⟩ <;>
    rcases second with ⟨_, _, _, _⟩ | _ | ⟨_, _, _, _⟩ | _ | ⟨_, _ | _, _, _⟩ |
      ⟨_, _ | _, _, _, _, _⟩ <;>
    cases kind
  all_goals
    cases position
    cases scope
    simp_all [Decl.parts, RoutineKind.parts, optional_inj, mandatory_inj, listOf_inj]

/-- Nodes of a kind with the same position, scope and parts are the same. -/
theorem Node.eq_of_parts {first second : Node} (kind : first.kind = second.kind)
    (position : first.position = second.position) (scope : first.scope = second.scope)
    (parts : first.parts = second.parts) : first = second := by
  have built : first.ctorIdx = second.ctorIdx := by
    rw [← first.blank_kind.2, kind, second.blank_kind.2]
  cases first <;> cases second <;> cases built
  case type.type => exact congrArg Node.type (TypeRef.eq_of_parts kind position parts)
  case decl.decl => exact congrArg Node.decl (Decl.eq_of_parts kind position scope parts)
  case stmt.stmt => exact congrArg Node.stmt (Stmt.eq_of_parts kind position parts)
  case expr.expr => exact congrArg Node.expr (Expr.eq_of_parts kind position parts)
  -- the others are records of their position, scope and parts
  all_goals
    rename_i value value'
    cases value
    cases value'
    cases position
    cases scope
    simp_all [Node.parts, optional_inj, mandatory_inj, listOf_inj, Option.map_inj_right]

end PascalCompiler
