import PascalCompiler.Proofs.Resolution.Traversal
import PascalCompiler.Proofs.Tree.WellFormed

/-!
# Defects of well-formed files

Nothing is missing from a well-formed file, so the only defect that its
declarations can have is an identifier without a name.

## Main definitions

* `Node.HasEmptyName`: a node one of whose identifiers has no name
* `Resolution.Unnamed`: a defect that is an identifier without a name

## Main results

* `Resolution.unnamed_of_mem_defectsOf`: the defects of declarations in a well-formed tree
* `File.unnamed_of_mem_defects`: the defects of a well-formed file
-/

namespace PascalCompiler

/-- One of the identifiers that a node holds has no name. -/
def Node.HasEmptyName (node : Node) : Prop :=
  ∃ part ∈ node.parts, ∃ ident : Ident, .ident ident ∈ part.nodes ∧ ident.name = ""

namespace Resolution

/-- The defect is that of a node in the tree which holds an identifier without a
name. -/
def Unnamed (root : Node) (defect : Defect) : Prop :=
  ∃ node, root.Within node ∧ node.HasEmptyName ∧ defect = .unnamed node.position node.kind

section Defects

variable {file : String} {root node : Node} {defect : Defect}

/-- The defect of an identifier that is there. -/
theorem unnamed_of_mem_identDefects {part : Component} {ident : Ident} (within : root.Within node)
    (isPart : part ∈ node.parts) (isChild : .ident ident ∈ part.nodes)
    (mem : defect ∈ identDefects node.position node.kind (some ident)) :
    Unnamed root defect := by
  rw [identDefects] at mem
  split at mem
  · next empty =>
    exact ⟨node, within, ⟨part, isPart, ident, isChild, empty⟩, List.mem_singleton.mp mem⟩
  · cases mem

variable (wellFormed : root.WellFormed file)
include wellFormed

/-- The defects of an identifier that must be there. -/
theorem unnamed_of_mandatory {key : String} {ident : Option Ident} (within : root.Within node)
    (isPart : .mandatory key .ident ident ∈ node.parts)
    (mem : defect ∈ identDefects node.position node.kind ident) : Unnamed root defect := by
  have there := (within.holds isPart).isSome file wellFormed
  obtain ⟨value, rfl⟩ := Option.isSome_iff_exists.mp there
  exact unnamed_of_mem_identDefects within isPart (List.mem_singleton_self _) mem

/-- The defects of a list of identifiers. -/
theorem unnamed_of_listOf {key : String} {listing : Listing} {idents : List (Option Ident)}
    (within : root.Within node) (isPart : .listOf key listing .ident idents ∈ node.parts)
    (mem : defect ∈ idents.flatMap (identDefects node.position node.kind)) :
    Unnamed root defect := by
  obtain ⟨ident, isIdent, mem⟩ := List.mem_flatMap.mp mem
  have there := (within.holds_of_mem isPart ident isIdent).isSome file wellFormed
  obtain ⟨value, rfl⟩ := Option.isSome_iff_exists.mp there
  have isChild : Node.ident value ∈ (Component.listOf key listing .ident idents).nodes :=
    List.mem_filterMap.mpr ⟨_, List.mem_map.mpr ⟨_, isIdent, rfl⟩, rfl⟩
  exact unnamed_of_mem_identDefects within isPart isChild mem

/-- The defects of a list of declarations, each of which has none but those. -/
theorem unnamed_of_mem_flatMap {α : Type} {of : α → Node} {list : List (Option α)}
    {defects : Option α → List Defect} (holds : ∀ value ∈ list, root.Holds of value)
    (each : ∀ a, root.Within (of a) → ∀ defect ∈ defects (some a), Unnamed root defect)
    (mem : defect ∈ list.flatMap defects) : Unnamed root defect := by
  obtain ⟨value, isValue, mem⟩ := List.mem_flatMap.mp mem
  have isHeld := holds value isValue
  obtain ⟨a, rfl⟩ := Option.isSome_iff_exists.mp (isHeld.isSome file wellFormed)
  exact each a (isHeld.within a rfl) defect mem

theorem unnamed_of_mem_varDefects (d : VarDecl) (within : root.Within (.decl (.var d))) :
    ∀ defect ∈ varDefects (some d), Unnamed root defect :=
  fun _ mem => unnamed_of_listOf wellFormed within (.head _) mem

theorem unnamed_of_mem_constDefects (d : ConstDecl) (within : root.Within (.decl (.const d))) :
    ∀ defect ∈ constDefects (some d), Unnamed root defect :=
  fun _ mem => unnamed_of_mandatory wellFormed within (.head _) mem

theorem unnamed_of_mem_paramDefects {params : List (Option ParamGroup)}
    (holds : ∀ group ∈ params, root.Holds .param group)
    (mem : defect ∈ paramDefects params) : Unnamed root defect :=
  unnamed_of_mem_flatMap wellFormed holds
    (fun _ within _ mem => unnamed_of_listOf wellFormed within (.head _) mem) mem

end Defects

mutual

theorem unnamed_of_mem_declDefects {file : String} {root : Node}
    (wellFormed : root.WellFormed file) :
    ∀ d : Decl, root.Within (.decl d) → ∀ defect ∈ declDefects d, Unnamed root defect
  | .var d, within, defect, mem => unnamed_of_mem_varDefects wellFormed d within defect mem
  | .vars _ _, within, _, mem =>
    unnamed_of_mem_flatMap wellFormed (within.holds_of_mem (.head _))
      (unnamed_of_mem_varDefects wellFormed) mem
  | .const d, within, defect, mem => unnamed_of_mem_constDefects wellFormed d within defect mem
  | .consts _ _, within, _, mem =>
    unnamed_of_mem_flatMap wellFormed (within.holds_of_mem (.head _))
      (unnamed_of_mem_constDefects wellFormed) mem
  | .header _, within, _, mem => unnamed_of_mandatory wellFormed within (.head _) mem
  | .routine r, within, defect, mem =>
    unnamed_of_mem_routineDefects wellFormed r within defect mem

theorem unnamed_of_mem_routineDefects {file : String} {root : Node}
    (wellFormed : root.WellFormed file) :
    ∀ r : Routine, root.Within (.decl (.routine r)) →
      ∀ defect ∈ routineDefects r, Unnamed root defect
  | ⟨position, kind, name, params, block, scope⟩, within, defect, mem => by
    rw [routineDefects, List.mem_append, List.mem_append] at mem
    rcases mem with (ofName | ofParams) | ofBlock
    · exact unnamed_of_mandatory wellFormed within (.head _) ofName
    · exact unnamed_of_mem_paramDefects wellFormed (within.holds_of_mem (.tail _ (.head _)))
        ofParams
    · -- a routine may lack its block, which then has no defects
      have isBlock := within.of_child (.tail _ (.tail _ (.head _)))
      exact unnamed_of_mem_blockDefects wellFormed block isBlock defect ofBlock

theorem unnamed_of_mem_blockDefects {file : String} {root : Node}
    (wellFormed : root.WellFormed file) :
    ∀ block : Option Block, (∀ b ∈ block, root.Within (.block b)) →
      ∀ defect ∈ blockDefects block, Unnamed root defect
  | none, _, _, mem => nomatch mem
  | some ⟨position, decls, body⟩, within, defect, mem => by
    have isDecl : ∀ d ∈ decls, root.Holds .decl d := (within _ rfl).holds_of_mem (.head _)
    exact unnamed_of_mem_defectsOf wellFormed decls isDecl defect mem

/-- The defects of declarations in a well-formed tree are identifiers without a
name. -/
theorem unnamed_of_mem_defectsOf {file : String} {root : Node}
    (wellFormed : root.WellFormed file) :
    ∀ decls : List (Option Decl), (∀ d ∈ decls, root.Holds .decl d) →
      ∀ defect ∈ defectsOf decls, Unnamed root defect
  | [], _, _, mem => nomatch mem
  | none :: _, holds, _, _ => nomatch (holds none (.head _)).isSome file wellFormed
  | some d :: rest, holds, defect, mem => by
    obtain ⟨here, others⟩ := List.forall_mem_cons.mp holds
    rw [defectsOf, List.mem_append] at mem
    rcases mem with ofFirst | ofRest
    · exact unnamed_of_mem_declDefects wellFormed d (here.within d rfl) defect ofFirst
    · exact unnamed_of_mem_defectsOf wellFormed rest others defect ofRest

end

end Resolution

/-! ### Declarations of files -/

/-- The declarations of a part of a unit, which is a node of either kind. -/
theorem UnitPart.holds_decls {root : Node} (of : UnitPart → Node) {part : Option UnitPart}
    (isPart : ∀ part, .listOf "declarations" .plain .decl part.decls ∈ (of part).parts)
    (within : ∀ p ∈ part, root.Within (of p)) :
    ∀ d ∈ (part.map UnitPart.decls).getD [], root.Holds .decl d := by
  cases part with
  | none => exact nofun
  | some part => exact (within part rfl).holds_of_mem (isPart part)

theorem UnitFile.holds_interface (file : UnitFile) :
    ∀ d ∈ (file.interfacePart.map UnitPart.decls).getD [], (Node.unit file).Holds .decl d :=
  UnitPart.holds_decls .interfacePart (fun _ => .tail _ (.head _))
    (Node.Within.root.of_child (.tail _ (.head _)))

theorem UnitFile.holds_implementation (file : UnitFile) :
    ∀ d ∈ (file.implementationPart.map UnitPart.decls).getD [], (Node.unit file).Holds .decl d :=
  UnitPart.holds_decls .implementationPart (fun _ => .tail _ (.head _))
    (Node.Within.root.of_child (.tail _ (.tail _ (.head _))))

/-- The declarations of a file are there if it is well-formed. -/
theorem File.holds_decls (file : File) : ∀ d ∈ file.decls, file.node.Holds .decl d := by
  cases file with
  | program file =>
    have isBlock : ∀ b ∈ file.block, (Node.program file).Within (.block b) :=
      Node.Within.root.of_child (.tail _ (.tail _ (.head _)))
    cases same : file.block with
    | none => simp [File.decls, ProgramFile.decls, same]
    | some block =>
      have each : ∀ d ∈ block.decls, (Node.program file).Holds .decl d :=
        (isBlock block same).holds_of_mem (.head _)
      have decls : (File.program file).decls = block.decls := by
        simp [File.decls, ProgramFile.decls, same]
      rw [decls]
      exact each
  | unit file =>
    intro d mem
    rcases List.mem_append.mp mem with inInterface | inImplementation
    · exact file.holds_interface d inInterface
    · exact file.holds_implementation d inImplementation

/-- The defects of a well-formed file are identifiers without a name. -/
theorem File.unnamed_of_mem_defects {file : File} {name : String}
    (wellFormed : file.node.WellFormed name) :
    ∀ defect ∈ file.defects, Resolution.Unnamed file.node defect := by
  rw [file.defects_eq]
  exact Resolution.unnamed_of_mem_defectsOf wellFormed file.decls file.holds_decls

end PascalCompiler
