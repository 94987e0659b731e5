import PascalCompiler.Proofs.Tree.Erasure
import PascalCompiler.Proofs.Tree.Shape

/-!
# Normal trees

A tree is brought into normal form by dropping two things that say nothing about the source
beyond what the rest of the tree says: the offsets of positions, which have lines and columns
besides, and empty lists of exception handlers, which stand for no handlers at all.

## Main definitions

* `Position.normalize`: a position without its offset
* `Stmt.normalize`, `Decl.normalize`, `File.normalize`, `Node.normalize`: normal forms of trees
* `Component.normalize`: normal forms of the parts of a node

## Main results

* `Node.parts_normalize`: the parts of a normal form are normal forms
* `Node.normalize_eq`: nodes of a kind have the same normal form if their parts have
-/

namespace PascalCompiler

/-! ### Names, types and expressions -/

/-- A position without its offset. -/
def Position.normalize (position : Position) : Position :=
  { position with offset := 0 }

/-- The normal form of a name. -/
def Ident.normalize : Ident → Ident :=
  Ident.relocate .normalize

/-- The normal form of a type. -/
def TypeRef.normalize : TypeRef → TypeRef :=
  TypeRef.relocate .normalize

/-- The normal form of an expression. -/
def Expr.normalize : Expr → Expr :=
  Expr.relocate .normalize

/-- The normal form of a range. -/
def Range.normalize : Range → Range :=
  Range.relocate .normalize

/-- The normal form of an element of a set constructor. -/
def Element.normalize : Element → Element
  | .expr e => .expr e.normalize
  | .range r => .range r.normalize

/-! ### Statements -/

mutual

/-- The normal form of a statement. -/
def Stmt.normalize : Stmt → Stmt
  | .assign position target op source =>
    .assign position.normalize (target.map Ident.normalize) op (source.map Expr.normalize)
  | .call position target args =>
    .call position.normalize (target.map Ident.normalize) (args.map (·.map Expr.normalize))
  | .compound value => .compound (Compound.normalize value)
  | .ifThen position condition onTrue onFalse =>
    .ifThen position.normalize (condition.map Expr.normalize) (Stmt.normalize? onTrue)
      (Stmt.normalize? onFalse)
  | .tryExcept position body handlers =>
    .tryExcept position.normalize (Stmt.normalizeAll body) (Handlers.normalize? handlers)
  | .tryFinally position body cleanup =>
    .tryFinally position.normalize (Stmt.normalizeAll body) (Stmt.normalizeAll cleanup)

/-- The normal form of a statement that may be absent. -/
def Stmt.normalize? : Option Stmt → Option Stmt
  | none => none
  | some s => some (Stmt.normalize s)

/-- The normal form of a list of statements. -/
def Stmt.normalizeAll : List (Option Stmt) → List (Option Stmt)
  | [] => []
  | s :: rest => Stmt.normalize? s :: Stmt.normalizeAll rest

/-- The normal form of a compound statement. -/
def Compound.normalize : Compound → Compound
  | ⟨position, body⟩ => ⟨position.normalize, Stmt.normalizeAll body⟩

/-- The normal form of what follows `except`. An empty list of handlers is none at all. -/
def Handlers.normalize? : Option Handlers → Option Handlers
  | none => none
  | some (.all body) => if body.isEmpty then none else some (.all (Stmt.normalizeAll body))
  | some (.clause clause) => some (.clause (HandlerClause.normalize clause))

/-- The normal form of a handler clause. -/
def HandlerClause.normalize : HandlerClause → HandlerClause
  | ⟨position, name, type, body⟩ =>
    ⟨position.normalize, name.map Ident.normalize, type.map TypeRef.normalize,
      Stmt.normalize? body⟩

end

/-! ### Declarations -/

/-- The normal form of a variable declaration. -/
def VarDecl.normalize (d : VarDecl) : VarDecl :=
  ⟨d.position.normalize, d.names.map (·.map Ident.normalize), d.type.map TypeRef.normalize,
    d.value.map Expr.normalize⟩

/-- The normal form of a constant declaration. -/
def ConstDecl.normalize (d : ConstDecl) : ConstDecl :=
  ⟨d.position.normalize, d.name.map Ident.normalize, d.type.map TypeRef.normalize,
    d.value.map Expr.normalize⟩

/-- The normal form of a group of parameters. -/
def ParamGroup.normalize (group : ParamGroup) : ParamGroup :=
  ⟨group.position.normalize, group.names.map (·.map Ident.normalize),
    group.type.map TypeRef.normalize⟩

/-- The normal form of the kind of a routine. -/
def RoutineKind.normalize : RoutineKind → RoutineKind
  | .procedure => .procedure
  | .function result => .function (result.map TypeRef.normalize)

/-- The normal form of a forward header. -/
def Header.normalize (h : Header) : Header :=
  ⟨h.position.normalize, h.kind.normalize, h.name.map Ident.normalize,
    h.params.map (·.map ParamGroup.normalize)⟩

mutual

/-- The normal form of a declaration. -/
def Decl.normalize : Decl → Decl
  | .var d => .var d.normalize
  | .vars position list => .vars position.normalize (list.map (·.map VarDecl.normalize))
  | .const d => .const d.normalize
  | .consts position list => .consts position.normalize (list.map (·.map ConstDecl.normalize))
  | .header h => .header h.normalize
  | .routine r => .routine (Routine.normalize r)

/-- The normal form of a routine. -/
def Routine.normalize : Routine → Routine
  | ⟨position, kind, name, params, block, scope⟩ =>
    ⟨position.normalize, kind.normalize, name.map Ident.normalize,
      params.map (·.map ParamGroup.normalize), Block.normalize? block, scope⟩

/-- The normal form of a block. -/
def Block.normalize : Block → Block
  | ⟨position, decls, body⟩ =>
    ⟨position.normalize, Decl.normalizeAll decls, body.map Compound.normalize⟩

/-- The normal form of a block that may be absent. -/
def Block.normalize? : Option Block → Option Block
  | none => none
  | some b => some (Block.normalize b)

/-- The normal form of a declaration that may be absent. -/
def Decl.normalize? : Option Decl → Option Decl
  | none => none
  | some d => some (Decl.normalize d)

/-- The normal form of a list of declarations. -/
def Decl.normalizeAll : List (Option Decl) → List (Option Decl)
  | [] => []
  | d :: rest => Decl.normalize? d :: Decl.normalizeAll rest

end

/-! ### Files and nodes -/

/-- The normal form of a comment. -/
def Comment.normalize (c : Comment) : Comment :=
  ⟨c.position.normalize, c.content⟩

/-- The normal form of the comments of a program. -/
def ProgramComments.normalize (c : ProgramComments) : ProgramComments :=
  ⟨c.pre.map Comment.normalize, c.uses.map Comment.normalize, c.final.map Comment.normalize,
    c.post.map Comment.normalize⟩

/-- The normal form of a heading. -/
def Heading.normalize (h : Heading) : Heading :=
  ⟨h.position.normalize, h.name.map Ident.normalize⟩

/-- The normal form of a uses clause. -/
def UsesClause.normalize (u : UsesClause) : UsesClause :=
  ⟨u.position.normalize, u.units.map (·.map Ident.normalize)⟩

/-- The normal form of a part of a unit. -/
def UnitPart.normalize (p : UnitPart) : UnitPart :=
  ⟨p.position.normalize, p.uses.map UsesClause.normalize, p.decls.map (·.map Decl.normalize)⟩

/-- The normal form of a program. -/
def ProgramFile.normalize (f : ProgramFile) : ProgramFile :=
  ⟨f.position.normalize, f.heading.map Heading.normalize, f.uses.map UsesClause.normalize,
    f.block.map Block.normalize, f.comments.normalize, f.scope⟩

/-- The normal form of a unit. -/
def UnitFile.normalize (f : UnitFile) : UnitFile :=
  ⟨f.position.normalize, f.heading.map Heading.normalize, f.interfacePart.map UnitPart.normalize,
    f.implementationPart.map UnitPart.normalize, f.scope⟩

/-- The normal form of a file. -/
def File.normalize : File → File
  | .program f => .program f.normalize
  | .unit f => .unit f.normalize

/-- The normal form of a node. -/
def Node.normalize : Node → Node
  | .program f => .program f.normalize
  | .unit f => .unit f.normalize
  | .programHeader h => .programHeader h.normalize
  | .unitHeader h => .unitHeader h.normalize
  | .interfacePart p => .interfacePart p.normalize
  | .implementationPart p => .implementationPart p.normalize
  | .uses u => .uses u.normalize
  | .comment c => .comment c.normalize
  | .ident i => .ident i.normalize
  | .type t => .type t.normalize
  | .param group => .param group.normalize
  | .block b => .block b.normalize
  | .decl d => .decl d.normalize
  | .stmt s => .stmt s.normalize
  | .handler clause => .handler clause.normalize
  | .expr e => .expr e.normalize
  | .range r => .range r.normalize

/-- The normal form of a part of a node. -/
def Component.normalize : Component → Component
  | .child key aliases needed node => .child key aliases needed (node.map Node.normalize)
  | .list key .bracketed [] => .child key [] false none
  | .list key listing nodes => .list key listing (nodes.map (·.map Node.normalize))
  | .text key aliases needed value => .text key aliases needed value
  | .integer key value => .integer key value
  | .comments value => .comments value.normalize

/-! ### Lists and options -/

theorem Expr.normalize?_eq (e : Option Expr) :
    Expr.relocate? Position.normalize e = e.map Expr.normalize := by
  cases e <;> rfl

theorem Expr.normalizeAll_eq (list : List (Option Expr)) :
    Expr.relocateAll Position.normalize list = list.map (·.map Expr.normalize) := by
  induction list with
  | nil => rfl
  | cons e rest ih => rw [Expr.relocateAll, ih, Expr.normalize?_eq, List.map_cons]

theorem Element.normalizeAll_eq (list : List (Option Element)) :
    Element.relocateAll Position.normalize list = list.map (·.map Element.normalize) := by
  induction list with
  | nil => rfl
  | cons e rest ih =>
    rw [Element.relocateAll, ih]
    rcases e with _ | (_ | _) <;> rfl

theorem Stmt.normalize?_eq (s : Option Stmt) : Stmt.normalize? s = s.map Stmt.normalize := by
  cases s <;> rfl

theorem Stmt.normalizeAll_eq (list : List (Option Stmt)) :
    Stmt.normalizeAll list = list.map (·.map Stmt.normalize) := by
  induction list with
  | nil => rfl
  | cons s rest ih => rw [Stmt.normalizeAll, ih, Stmt.normalize?_eq, List.map_cons]

theorem Decl.normalize?_eq (d : Option Decl) : Decl.normalize? d = d.map Decl.normalize := by
  cases d <;> rfl

theorem Decl.normalizeAll_eq (list : List (Option Decl)) :
    Decl.normalizeAll list = list.map (·.map Decl.normalize) := by
  induction list with
  | nil => rfl
  | cons d rest ih => rw [Decl.normalizeAll, ih, Decl.normalize?_eq, List.map_cons]

theorem Block.normalize?_eq (b : Option Block) : Block.normalize? b = b.map Block.normalize := by
  cases b <;> rfl

/-! ### Parts -/

section Parts

theorem normalize_list {key : String} {listing : Listing} {nodes : List (Option Node)}
    (dense : listing ≠ .bracketed) :
    (Component.list key listing nodes).normalize =
      .list key listing (nodes.map (·.map Node.normalize)) := by
  rw [Component.normalize]
  exact fun isBracketed _ => dense isBracketed

theorem Element.normalize_node (e : Element) : e.node.normalize = e.normalize.node := by
  cases e <;> rfl

theorem normalize_handlers (handlers : Option Handlers) :
    (Component.handlers handlers).normalize = .handlers (Handlers.normalize? handlers) := by
  rcases handlers with _ | (body | clause)
  · rfl
  · -- no handlers and an empty list of handlers have the same normal form
    cases body with
    | nil => rfl
    | cons first rest =>
      have items : ((first :: rest).map (·.map Node.stmt)).map (·.map Node.normalize) =
          (Stmt.normalizeAll (first :: rest)).map (·.map .stmt) := by
        simp [Stmt.normalizeAll_eq, Function.comp_def, Node.normalize]
      exact congrArg (Component.list "handlers" .bracketed) items
  · rfl

theorem Expr.parts_normalize (e : Expr) :
    e.normalize.parts = e.parts.map Component.normalize := by
  cases e with
  | setOf position elements =>
    simp [Expr.normalize, Expr.relocate, Expr.parts, Component.listOf, normalize_list,
      Element.normalizeAll_eq, Element.normalize_node, Function.comp_def]
  | _ =>
    simp [Expr.normalize, Expr.relocate, Expr.parts, Component.mandatory, Component.listOf,
      Component.normalize, Expr.normalize?_eq, Expr.normalizeAll_eq, Node.normalize,
      Ident.normalize, Function.comp_def]

theorem Stmt.parts_normalize (s : Stmt) :
    s.normalize.parts = s.parts.map Component.normalize := by
  cases s with
  | compound value =>
    cases value
    simp [Stmt.normalize, Compound.normalize, Stmt.parts, Component.listOf, Component.normalize,
      Stmt.normalizeAll_eq, Node.normalize, Function.comp_def]
  | tryExcept position body handlers =>
    have bodies : (Component.listOf "body" .sparse .stmt body).normalize =
        .listOf "body" .sparse .stmt (Stmt.normalizeAll body) := by
      simp [Component.listOf, normalize_list, Stmt.normalizeAll_eq, Node.normalize,
        Function.comp_def]
    simp only [Stmt.normalize, Stmt.parts, List.map_cons, List.map_nil, bodies, normalize_handlers]
  | _ =>
    simp [Stmt.normalize, Stmt.parts, Component.optional, Component.mandatory, Component.listOf,
      Component.normalize, Stmt.normalize?_eq, Stmt.normalizeAll_eq, Node.normalize,
      Function.comp_def]

theorem RoutineKind.parts_normalize (kind : RoutineKind) :
    kind.normalize.parts = kind.parts.map Component.normalize := by
  cases kind <;>
    simp [RoutineKind.normalize, RoutineKind.parts, Component.optional, Component.normalize,
      Node.normalize, Function.comp_def]

theorem Decl.parts_normalize (d : Decl) :
    d.normalize.parts = d.parts.map Component.normalize := by
  cases d with
  | header h =>
    simp [Decl.normalize, Header.normalize, Decl.parts, Component.mandatory, Component.listOf,
      Component.normalize, RoutineKind.parts_normalize, Node.normalize, Function.comp_def]
  | routine r =>
    cases r
    simp [Decl.normalize, Routine.normalize, Block.normalize?_eq, Decl.parts, Component.optional,
      Component.mandatory, Component.listOf, Component.normalize, RoutineKind.parts_normalize,
      Node.normalize, Function.comp_def]
  | _ =>
    simp [Decl.normalize, VarDecl.normalize, ConstDecl.normalize, Decl.parts, Component.optional,
      Component.mandatory, Component.listOf, Component.normalize, Node.normalize,
      Function.comp_def]

/-- The parts of a normal form are normal forms. -/
theorem Node.parts_normalize (node : Node) :
    node.normalize.parts = node.parts.map Component.normalize := by
  cases node with
  | expr e => exact e.parts_normalize
  | stmt s => exact s.parts_normalize
  | decl d => exact d.parts_normalize
  | type t =>
    cases t <;>
      simp [Node.normalize, TypeRef.normalize, TypeRef.relocate, Ident.normalize, Node.parts,
        Component.mandatory, Component.normalize, Function.comp_def]
  | block b =>
    cases b
    simp [Node.normalize, Block.normalize, Decl.normalizeAll_eq, Stmt.normalize, Node.parts,
      Component.mandatory, Component.listOf, Component.normalize, Function.comp_def]
  | handler clause =>
    cases clause
    simp [Node.normalize, HandlerClause.normalize, Stmt.normalize?_eq, Node.parts,
      Component.optional, Component.normalize, Function.comp_def]
  | range r =>
    cases r
    simp [Node.normalize, Range.normalize, Range.relocate, Expr.normalize?_eq, Node.parts,
      Component.mandatory, Component.normalize, Function.comp_def]
  | _ =>
    simp [Node.normalize, ProgramFile.normalize, UnitFile.normalize, Heading.normalize,
      UnitPart.normalize, UsesClause.normalize, Comment.normalize, ParamGroup.normalize,
      Ident.normalize, Ident.relocate, Node.parts, Component.optional, Component.mandatory,
      Component.listOf, Component.normalize, Function.comp_def]

/-! ### Normal forms from parts -/

/-- A normal form has the kind and the scope of the node, and its position but for the offset. -/
theorem Node.normalize_keeps (node : Node) :
    node.normalize.kind = node.kind ∧ node.normalize.position = node.position.normalize ∧
      node.normalize.scope = node.scope := by
  cases node with
  | type t | expr t => cases t <;> exact ⟨rfl, rfl, rfl⟩
  | block value | handler value | range value =>
    cases value
    exact ⟨rfl, rfl, rfl⟩
  | decl d =>
    cases d with
    | header h => rcases h with ⟨_, _ | _, _, _⟩ <;> exact ⟨rfl, rfl, rfl⟩
    | routine r => rcases r with ⟨_, _ | _, _, _, _, _⟩ <;> exact ⟨rfl, rfl, rfl⟩
    | _ => exact ⟨rfl, rfl, rfl⟩
  | stmt s =>
    cases s with
    | compound value =>
      cases value
      exact ⟨rfl, rfl, rfl⟩
    | _ => exact ⟨rfl, rfl, rfl⟩
  | _ => exact ⟨rfl, rfl, rfl⟩

/-- Nodes of a kind have the same normal form if their positions and parts have. -/
theorem Node.normalize_eq {first second : Node} (kind : first.kind = second.kind)
    (position : first.position.normalize = second.position.normalize)
    (scope : first.scope = second.scope)
    (parts : first.parts.map Component.normalize = second.parts.map Component.normalize) :
    first.normalize = second.normalize := by
  obtain ⟨kind₁, position₁, scope₁⟩ := first.normalize_keeps
  obtain ⟨kind₂, position₂, scope₂⟩ := second.normalize_keeps
  apply Node.eq_of_parts
  · rw [kind₁, kind₂, kind]
  · rw [position₁, position₂, position]
  · rw [scope₁, scope₂, scope]
  · rw [first.parts_normalize, second.parts_normalize, parts]

end Parts

end PascalCompiler
