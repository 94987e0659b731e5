import PascalCompiler.Proofs.Tree.Everywhere

/-!
# Files with a gap

A gap is a place in a file where a routine stands, with all that is around it. Filling it
with a routine gives a file. Every routine in a file, however deep inside of others, is what
a gap is filled with.

## Main definitions

* `Node.declares`: can there be declarations under a node?
* `DeclSite`: a place where declarations are listed, in a file or in a block inside of it
* `Gap`: a place where a routine is declared

## Main results

* `Gap.exists_fill_eq`: every routine in a file fills a gap in it
-/

namespace PascalCompiler

/-! ### Nodes with declarations -/

/-- Can there be declarations in the tree under the node? -/
def Node.declares : Node → Bool
  | .program _ | .unit _ | .interfacePart _ | .implementationPart _ | .block _ | .decl _
  | .param _ => true
  | _ => false

theorem declares_element (element : Element) : element.node.declares = false := by
  cases element <;> rfl

/-- There are no declarations under the parts of a node without declarations. -/
theorem declares_child {owner : Node} (quiet : owner.declares = false) :
    ∀ part ∈ owner.parts, ∀ child ∈ part.nodes, child.declares = false := by
  cases owner with
  | program | unit | interfacePart | implementationPart | block | decl | param => cases quiet
  | expr e =>
    cases e <;> simp only [Node.parts, Expr.parts, Component.mandatory, forall_mem_child,
      forall_mem_listOf, List.forall_mem_cons, declares_element] <;>
      simp [Node.declares, Component.nodes]
  | stmt s =>
    cases s with
    | tryExcept position body handlers =>
      rcases handlers with - | ⟨body⟩ | ⟨clause⟩ <;>
        simp only [Node.parts, Stmt.parts, Component.handlers, List.forall_mem_cons,
          forall_mem_listOf] <;> simp [Node.declares, Component.nodes]
    | _ =>
      simp only [Node.parts, Stmt.parts, Component.mandatory, Component.optional, forall_mem_child,
        forall_mem_listOf, List.forall_mem_cons]
      simp [Node.declares, Component.nodes]
  | type t =>
    cases t <;> simp only [Node.parts, Component.mandatory, forall_mem_child,
        List.forall_mem_cons] <;> simp [Node.declares, Component.nodes]
  | _ =>
    simp only [Node.parts, Component.mandatory, Component.optional, forall_mem_child,
      forall_mem_listOf, List.forall_mem_cons]
    simp [Node.declares, Component.nodes]

/-! ### Gaps -/

/-- A block with other declarations. -/
def Block.withDecls (block : Block) (decls : List (Option Decl)) : Block :=
  { block with decls := decls }

theorem Block.withDecls_decls (block : Block) : block.withDecls block.decls = block := by
  obtain ⟨position, decls, body⟩ := block
  rfl

/-- A routine with a block. -/
def Routine.withBlock (routine : Routine) (block : Block) : Routine :=
  { routine with block := some block }

/-- A part of a unit with other declarations. -/
def UnitPart.withDecls (part : UnitPart) (decls : List (Option Decl)) : UnitPart :=
  { part with decls := decls }

/-- A place where declarations are listed. -/
inductive DeclSite where
  | program (file : ProgramFile) (block : Block)
  | interfacePart (file : UnitFile) (part : UnitPart)
  | implementationPart (file : UnitFile) (part : UnitPart)
  /-- The block of a routine, between other declarations at a site. -/
  | routine (site : DeclSite) (before after : List (Option Decl)) (outer : Routine)
      (block : Block)

/-- The declarations at the site of a routine, which has its own declarations in a block. -/
def DeclSite.around (before after : List (Option Decl)) (outer : Routine) (block : Block)
    (decls : List (Option Decl)) : List (Option Decl) :=
  before ++ some (.routine (outer.withBlock (block.withDecls decls))) :: after

/-- The file with the declarations at a site. -/
def DeclSite.fill : DeclSite → List (Option Decl) → File
  | .program file block, decls => .program { file with block := some (block.withDecls decls) }
  | .interfacePart file part, decls =>
    .unit { file with interfacePart := some (part.withDecls decls) }
  | .implementationPart file part, decls =>
    .unit { file with implementationPart := some (part.withDecls decls) }
  | .routine site before after outer block, decls =>
    site.fill (around before after outer block decls)

/-- A place where a routine is declared, between other declarations at a site. -/
structure Gap where
  site : DeclSite
  before : List (Option Decl)
  after : List (Option Decl)

/-- The declarations at the site of a gap with a routine in it. -/
def Gap.decls (gap : Gap) (r : Routine) : List (Option Decl) :=
  gap.before ++ some (.routine r) :: gap.after

/-- The file with a routine in a gap. -/
def Gap.fill (gap : Gap) (r : Routine) : File :=
  gap.site.fill (gap.decls r)

/-! ### Routines of a file -/

/-- Where a node with declarations is in a file. -/
def Located (file : File) : Node → Prop
  | .program f => .program f = file
  | .unit f => .unit f = file
  | .interfacePart part | .implementationPart part =>
    ∃ site : DeclSite, site.fill part.decls = file
  | .block block => ∃ site : DeclSite, site.fill block.decls = file
  | .decl (.routine r) => ∃ gap : Gap, gap.fill r = file
  | _ => True

theorem located_of_quiet {file : File} {node : Node} (quiet : node.declares = false) :
    Located file node := by
  cases node with
  | program | unit | interfacePart | implementationPart | block | decl | param => cases quiet
  | _ => trivial

/-- What is declared at a site is in a gap there. -/
theorem located_decl {file : File} {site : DeclSite} {decls : List (Option Decl)}
    (isSite : site.fill decls = file) : ∀ value ∈ decls, ∀ d ∈ value, Located file (.decl d) := by
  rintro value isDecl d rfl
  cases d with
  | routine r =>
    obtain ⟨before, after, rfl⟩ := List.append_of_mem isDecl
    exact ⟨⟨site, before, after⟩, isSite⟩
  | _ => trivial

/-- The block of a routine in a gap is a site. -/
theorem located_block {file : File} {gap : Gap} {r : Routine} (isGap : gap.fill r = file) :
    ∀ b ∈ r.block, Located file (.block b) := by
  intro b isBlock
  have same : r.withBlock (b.withDecls b.decls) = r := by
    obtain ⟨position, kind, name, params, block, scope⟩ := r
    cases isBlock
    rw [Block.withDecls_decls, Routine.withBlock]
  refine ⟨.routine gap.site gap.before gap.after r b, ?_⟩
  rw [DeclSite.fill, DeclSite.around, same]
  exact isGap

theorem located_returnType {file : File} (kind : RoutineKind) :
    ∀ part ∈ kind.parts, ∀ child ∈ part.nodes, Located file child := by
  cases kind with
  | procedure => exact List.forall_mem_nil _
  | function result =>
    simp only [RoutineKind.parts, List.forall_mem_cons, Component.optional, forall_mem_child]
    exact ⟨fun _ _ => trivial, List.forall_mem_nil _⟩

/-- If a node has its place in a file, the nodes in it have theirs. -/
theorem located_child {file : File} {node : Node} (located : Located file node) :
    ∀ part ∈ node.parts, ∀ child ∈ part.nodes, Located file child := by
  cases declares : node.declares with
  | false =>
    intro part isPart child isChild
    exact located_of_quiet (declares_child declares part isPart child isChild)
  | true =>
    cases node with
    | program f =>
      obtain rfl : .program f = file := located
      have block : ∀ b ∈ f.block, Located (.program f) (.block b) := by
        intro b isBlock
        refine ⟨.program f b, ?_⟩
        obtain ⟨position, heading, uses, block, comments, scope⟩ := f
        cases isBlock
        rw [DeclSite.fill, Block.withDecls_decls]
      have comments : ∀ child ∈ (Component.comments f.comments).nodes,
          Located (.program f) child := by
        intro child isChild
        obtain ⟨comment, -, rfl⟩ := List.mem_map.mp isChild
        trivial
      simp only [Node.parts, List.forall_mem_cons, Component.optional, Component.mandatory,
        forall_mem_child]
      exact ⟨fun _ _ => trivial, fun _ _ => trivial, block, comments, List.forall_mem_nil _⟩
    | unit f =>
      obtain rfl : .unit f = file := located
      have first : ∀ part ∈ f.interfacePart, Located (.unit f) (.interfacePart part) := by
        intro part isPart
        refine ⟨.interfacePart f part, ?_⟩
        obtain ⟨position, heading, interfacePart, implementationPart, scope⟩ := f
        cases isPart
        rfl
      have second : ∀ part ∈ f.implementationPart,
          Located (.unit f) (.implementationPart part) := by
        intro part isPart
        refine ⟨.implementationPart f part, ?_⟩
        obtain ⟨position, heading, interfacePart, implementationPart, scope⟩ := f
        cases isPart
        rfl
      simp only [Node.parts, List.forall_mem_cons, Component.optional, forall_mem_child]
      exact ⟨fun _ _ => trivial, first, second, List.forall_mem_nil _⟩
    | interfacePart part | implementationPart part =>
      obtain ⟨site, isSite⟩ := located
      simp only [Node.parts, List.forall_mem_cons, Component.optional, forall_mem_child,
        forall_mem_listOf]
      exact ⟨fun _ _ => trivial, located_decl isSite, List.forall_mem_nil _⟩
    | block b =>
      obtain ⟨site, isSite⟩ := located
      simp only [Node.parts, List.forall_mem_cons, Component.mandatory, forall_mem_child,
        forall_mem_listOf]
      exact ⟨located_decl isSite, fun _ _ => trivial, List.forall_mem_nil _⟩
    | param group =>
      simp only [Node.parts, List.forall_mem_cons, Component.optional, forall_mem_child,
        forall_mem_listOf]
      exact ⟨fun _ _ _ _ => trivial, fun _ _ => trivial, List.forall_mem_nil _⟩
    | decl d =>
      cases d with
      | routine r =>
        obtain ⟨gap, isGap⟩ := located
        simp only [Node.parts, Decl.parts, List.forall_mem_cons, Component.optional,
          Component.mandatory, forall_mem_child, forall_mem_listOf]
        exact ⟨fun _ _ => trivial, fun _ _ _ _ => trivial, located_block isGap,
          located_returnType r.kind⟩
      | header h =>
        simp only [Node.parts, Decl.parts, List.forall_mem_cons, Component.mandatory,
          forall_mem_child, forall_mem_listOf]
        exact ⟨fun _ _ => trivial, fun _ _ _ _ => trivial, located_returnType h.kind⟩
      | var d | const d | vars position list | consts position list =>
        simp only [Node.parts, Decl.parts, List.forall_mem_cons, Component.optional,
          Component.mandatory, forall_mem_child, forall_mem_listOf, Located, List.not_mem_nil,
          false_implies, implies_true, and_true]
    | _ => cases declares

namespace Gap

/-- Every routine in a file fills a gap in it. -/
theorem exists_fill_eq {file : File} {r : Routine}
    (within : file.node.Within (.decl (.routine r))) : ∃ gap : Gap, gap.fill r = file := by
  have located (node : Node) (within : file.node.Within node) : Located file node := by
    induction within with
    | root => cases file <;> rfl
    | child _ isPart isChild ih => exact located_child ih _ isPart _ isChild
  exact located _ within

end Gap

end PascalCompiler
