import PascalCompiler.Proofs.Resolution.Traversal
import PascalCompiler.Session

/-!
# Files without scopes

Detaching takes the scopes off a file and leaves everything else as it is. Attaching
and detaching undo each other as far as they can: what is detached after a resolution
is what was there before it, and what is resolved does not depend on the scopes that
were attached.

## Main definitions

* `Resolution.detachDecls`, `File.detach`: declarations and files without scopes

## Main results

* `File.detach_resolve`: resolving a file changes nothing but scopes
* `File.resolve_detach`: resolving a file replaces all scopes
* `File.defects_detach`, `File.compile_detach`: scopes do not matter for defects and for compiling
-/

namespace PascalCompiler

namespace Resolution

mutual

/-- A declaration without scopes. -/
def detachDecl : Decl → Decl
  | .routine r => .routine (detachRoutine r)
  | .var d => .var d
  | .vars position list => .vars position list
  | .const d => .const d
  | .consts position list => .consts position list
  | .header h => .header h

/-- A routine without scopes. -/
def detachRoutine : Routine → Routine
  | ⟨position, kind, name, params, block, _⟩ =>
    ⟨position, kind, name, params, detachBlock? block, none⟩

/-- A block that may be absent without scopes. -/
def detachBlock? : Option Block → Option Block
  | none => none
  | some ⟨position, decls, body⟩ => some ⟨position, detachDecls decls, body⟩

/-- A list of declarations without scopes. -/
def detachDecls : List (Option Decl) → List (Option Decl)
  | [] => []
  | none :: rest => none :: detachDecls rest
  | some d :: rest => some (detachDecl d) :: detachDecls rest

end

theorem detachDecls_eq_map (decls : List (Option Decl)) :
    detachDecls decls = decls.map (·.map detachDecl) := by
  induction decls with
  | nil => rw [detachDecls, List.map_nil]
  | cons d rest ih =>
    cases d with
    | none => rw [detachDecls, ih, List.map_cons, Option.map_none]
    | some d => rw [detachDecls, ih, List.map_cons, Option.map_some]

theorem attachDecls_eq_map (tables : List NameTable) (decls : List (Option Decl)) :
    attachDecls tables decls = decls.map (·.map (attachDecl tables)) := by
  induction decls with
  | nil => rw [attachDecls, List.map_nil]
  | cons d rest ih =>
    cases d with
    | none => rw [attachDecls, attachDecl?, ih, List.map_cons, Option.map_none]
    | some d => rw [attachDecls, attachDecl?, ih, List.map_cons, Option.map_some]

/-! ### Names -/

/-- A declaration binds the same names without scopes. -/
theorem ofDecl_detachDecl (d : Decl) : ofDecl (some (detachDecl d)) = ofDecl (some d) := by
  cases d with
  | routine r =>
    obtain ⟨position, kind, name, params, block, scope⟩ := r
    rw [detachDecl, detachRoutine, ofDecl, ofDecl]
  | _ => rw [detachDecl]

theorem ofDecls_detachDecls (decls : List (Option Decl)) :
    ofDecls (detachDecls decls) = ofDecls decls := by
  rw [detachDecls_eq_map, ofDecls, ofDecls, List.flatMap_map]
  congr 1
  funext d
  cases d with
  | none => rfl
  | some d => exact ofDecl_detachDecl d

theorem declsOf_detachBlock? (block : Option Block) :
    declsOf (detachBlock? block) = detachDecls (declsOf block) := by
  obtain - | ⟨position, decls, body⟩ := block
  · rw [detachBlock?, declsOf, Option.map_none, Option.getD_none, detachDecls]
  · rw [detachBlock?]
    rfl

theorem declsOf_attachBlock? (tables : List NameTable) (block : Option Block) :
    declsOf (attachBlock? tables block) = attachDecls tables (declsOf block) := by
  obtain - | ⟨position, decls, body⟩ := block
  · rw [attachBlock?, declsOf, Option.map_none, Option.getD_none, attachDecls]
  · rw [attachBlock?, attachBlock]
    rfl

theorem ofRoutine_detachBlock? (params : List (Option ParamGroup)) (block : Option Block) :
    ofRoutine params (detachBlock? block) = ofRoutine params block := by
  rw [ofRoutine, ofRoutine, declsOf_detachBlock?, ofDecls_detachDecls]

/-! ### Attaching and detaching -/

mutual

/-- Attaching scopes to a declaration changes nothing else. -/
theorem detachDecl_attachDecl (tables : List NameTable) :
    ∀ d : Decl, detachDecl (attachDecl tables d) = detachDecl d
  | .var _ | .vars .. | .const _ | .consts .. | .header _ => by rw [attachDecl]
  | .routine r => by
    rw [attachDecl, detachDecl, detachDecl, detachRoutine_attachRoutine tables r]

theorem detachRoutine_attachRoutine (tables : List NameTable) :
    ∀ r : Routine, detachRoutine (attachRoutine tables r) = detachRoutine r
  | ⟨position, kind, name, params, block, scope⟩ => by
    rw [attachRoutine, detachRoutine, detachRoutine, detachBlock?_attachBlock? _ block]

theorem detachBlock?_attachBlock? (tables : List NameTable) :
    ∀ block : Option Block, detachBlock? (attachBlock? tables block) = detachBlock? block
  | none => by rw [attachBlock?]
  | some ⟨position, decls, body⟩ => by
    rw [attachBlock?, attachBlock, detachBlock?, detachBlock?, detachDecls_attachDecls _ decls]

theorem detachDecls_attachDecls (tables : List NameTable) :
    ∀ decls : List (Option Decl), detachDecls (attachDecls tables decls) = detachDecls decls
  | [] => by rw [attachDecls]
  | none :: rest => by
    rw [attachDecls, attachDecl?, detachDecls, detachDecls, detachDecls_attachDecls tables rest]
  | some d :: rest => by
    rw [attachDecls, attachDecl?, detachDecls, detachDecls, detachDecl_attachDecl tables d,
      detachDecls_attachDecls tables rest]

end

mutual

/-- The scopes attached to a declaration do not depend on those attached before. -/
theorem attachDecl_detachDecl (tables : List NameTable) :
    ∀ d : Decl, attachDecl tables (detachDecl d) = attachDecl tables d
  | .var _ | .vars .. | .const _ | .consts .. | .header _ => by rw [detachDecl]
  | .routine r => by
    rw [detachDecl, attachDecl, attachDecl, attachRoutine_detachRoutine tables r]

theorem attachRoutine_detachRoutine (tables : List NameTable) :
    ∀ r : Routine, attachRoutine tables (detachRoutine r) = attachRoutine tables r
  | ⟨position, kind, name, params, block, scope⟩ => by
    -- the table is that of the names, and these are the same
    rw [detachRoutine, attachRoutine, attachRoutine, ofRoutine_detachBlock?,
      attachBlock?_detachBlock? _ block]

theorem attachBlock?_detachBlock? (tables : List NameTable) :
    ∀ block : Option Block, attachBlock? tables (detachBlock? block) = attachBlock? tables block
  | none => by rw [detachBlock?]
  | some ⟨position, decls, body⟩ => by
    rw [detachBlock?, attachBlock?, attachBlock?, attachBlock, attachBlock,
      attachDecls_detachDecls _ decls]

theorem attachDecls_detachDecls (tables : List NameTable) :
    ∀ decls : List (Option Decl), attachDecls tables (detachDecls decls) = attachDecls tables decls
  | [] => by rw [detachDecls]
  | none :: rest => by
    rw [detachDecls, attachDecls, attachDecls, attachDecls_detachDecls tables rest]
  | some d :: rest => by
    rw [detachDecls, attachDecls, attachDecls, attachDecl?, attachDecl?,
      attachDecl_detachDecl tables d, attachDecls_detachDecls tables rest]

end

/-! ### Defects -/

mutual

/-- A declaration has the same defects without scopes. -/
theorem declDefects_detachDecl : ∀ d : Decl, declDefects (detachDecl d) = declDefects d
  | .var _ | .vars .. | .const _ | .consts .. | .header _ => by rw [detachDecl]
  | .routine r => by rw [detachDecl, declDefects, declDefects, routineDefects_detachRoutine r]

theorem routineDefects_detachRoutine :
    ∀ r : Routine, routineDefects (detachRoutine r) = routineDefects r
  | ⟨position, kind, name, params, block, scope⟩ => by
    rw [detachRoutine, routineDefects, routineDefects, blockDefects_detachBlock? block]
    rfl

theorem blockDefects_detachBlock? :
    ∀ block : Option Block, blockDefects (detachBlock? block) = blockDefects block
  | none => by rw [detachBlock?]
  | some ⟨position, decls, body⟩ => by
    rw [detachBlock?, blockDefects, blockDefects, defectsOf_detachDecls decls]

theorem defectsOf_detachDecls :
    ∀ decls : List (Option Decl), defectsOf (detachDecls decls) = defectsOf decls
  | [] => by rw [detachDecls]
  | none :: rest => by
    rw [detachDecls, defectsOf, defectsOf, defectsOf_detachDecls rest]
  | some d :: rest => by
    rw [detachDecls, defectsOf, defectsOf, declDefects_detachDecl d, defectsOf_detachDecls rest]

end

/-- A part of a unit without scopes. -/
def detachPart (part : UnitPart) : UnitPart :=
  { part with decls := detachDecls part.decls }

theorem detachPart_attachPart (tables : List NameTable) (part : UnitPart) :
    detachPart (attachPart tables part) = detachPart part := by
  rw [detachPart, detachPart, attachPart, detachDecls_attachDecls]

theorem attachPart_detachPart (tables : List NameTable) (part : UnitPart) :
    attachPart tables (detachPart part) = attachPart tables part := by
  rw [attachPart, attachPart, detachPart, attachDecls_detachDecls]

end Resolution

/-! ### Files -/

namespace File

open Resolution

/-- A file without scopes. -/
def detach : File → File
  | .program f => .program { f with block := detachBlock? f.block, scope := none }
  | .unit f =>
    .unit
      { f with
        interfacePart := f.interfacePart.map detachPart
        implementationPart := f.implementationPart.map detachPart
        scope := none }

/-- The declarations of a unit whose parts are changed declaration by declaration. -/
theorem decls_unit_map {change : UnitPart → UnitPart} {g : Option Decl → Option Decl}
    (each : ∀ part, (change part).decls = part.decls.map g) (f : UnitFile)
    (scope : Option Scope) :
    decls (.unit { f with
      interfacePart := f.interfacePart.map change
      implementationPart := f.implementationPart.map change
      scope := scope }) = (decls (.unit f)).map g := by
  have part (p : Option UnitPart) : ((p.map change).map UnitPart.decls).getD [] =
      ((p.map UnitPart.decls).getD []).map g := by
    cases p with
    | none => rfl
    | some p => exact each p
  rw [decls, decls, UnitFile.decls, UnitFile.decls, List.map_append, ← part, ← part]

theorem decls_detach (file : File) : file.detach.decls = detachDecls file.decls := by
  cases file with
  | program f => exact declsOf_detachBlock? f.block
  | unit f =>
    rw [detachDecls_eq_map]
    exact decls_unit_map (fun part => detachDecls_eq_map part.decls) f none

theorem decls_resolve (file : File) :
    file.resolve.decls = attachDecls [file.nameTable] file.decls := by
  rw [resolve_eq]
  cases file with
  | program f => exact declsOf_attachBlock? _ f.block
  | unit f =>
    rw [attachDecls_eq_map]
    exact decls_unit_map (fun part => attachDecls_eq_map _ part.decls) f _

theorem nameTable_detach (file : File) : file.detach.nameTable = file.nameTable := by
  rw [nameTable, nameTable, decls_detach, ofDecls_detachDecls]

/-- Scopes do not matter for defects. -/
theorem defects_detach (file : File) : file.detach.defects = file.defects := by
  rw [defects_eq, defects_eq, decls_detach, defectsOf_detachDecls]

/-- Resolving a file changes nothing but scopes. -/
theorem detach_resolve (file : File) : file.resolve.detach = file.detach := by
  rw [resolve_eq]
  cases file with
  | program f =>
    rw [attachFile, detach, detach]
    simp only [detachBlock?_attachBlock?]
  | unit f =>
    rw [attachFile, detach, detach]
    simp only [Option.map_map, Function.comp_def, detachPart_attachPart]

/-- Resolving a file replaces all scopes. -/
theorem resolve_detach (file : File) : file.detach.resolve = file.resolve := by
  have names := nameTable_detach file
  rw [resolve_eq, resolve_eq]
  cases file with
  | program f =>
    rw [detach] at names ⊢
    rw [attachFile, attachFile, names]
    simp only [attachBlock?_detachBlock?]
  | unit f =>
    rw [detach] at names ⊢
    rw [attachFile, attachFile, names]
    simp only [Option.map_map, Function.comp_def, attachPart_detachPart]

theorem resolve_resolve (file : File) : file.resolve.resolve = file.resolve := by
  rw [← resolve_detach file.resolve, detach_resolve, resolve_detach]

/-- Scopes do not matter for compiling. -/
theorem compile_detach (file : File) : file.detach.compile = file.compile := by
  rw [compile, compile, defects_detach, resolve_detach]

end File

end PascalCompiler
