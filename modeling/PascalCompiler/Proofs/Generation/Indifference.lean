import PascalCompiler.Proofs.Generation.Lockstep
import PascalCompiler.Proofs.Generation.Outcome

/-!
# What compiling does not look at

Positions, declared types, headings, uses clauses, comments, the parameters of forward headers
and the scopes of an earlier resolution leave no trace in a script. An erased file binds the
same names, so resolution attaches the same scopes to it, and its defects are those of the file
up to their positions. The generator is in step on the two.

Hence two files that differ in nothing else compile to the same text, or fail alike.

## Main definitions

* `Erasure.defect`, `Erasure.compileError`: what is left of a defect and of a compile error
* `CompileError.Alike`: errors that differ in what they show and not in what they say

## Main results

* `Erasure.resolve_file`, `Erasure.defects_file`: resolution and defects of an erased file
* `Erasure.compile_file`: an erased file compiles as the file does
* `File.compile_indifferent`: files that differ in diagnostics and scopes compile alike
-/

namespace PascalCompiler

open Resolution

namespace Erasure

variable (e : Erasure)

/-! ### Names -/

/-- A list binds the same names if each of its items does. -/
theorem flatMap_map_names {α β : Type} {erase : α → α} {names : α → List β}
    (same : ∀ a, names (erase a) = names a) (list : List α) :
    (list.map erase).flatMap names = list.flatMap names := by
  rw [List.flatMap_map]
  exact List.flatMap_congr fun a _ => same a

theorem ofIdent_ident (kind : NameKind) (ident : Option Ident) :
    ofIdent kind (ident.map e.ident) = ofIdent kind ident := by
  cases ident <;> rfl

theorem flatMap_ofIdent_idents (kind : NameKind) (names : List (Option Ident)) :
    (e.idents names).flatMap (ofIdent kind) = names.flatMap (ofIdent kind) :=
  flatMap_map_names (e.ofIdent_ident kind) names

theorem ofVar_varDecl (d : Option VarDecl) : ofVar (d.map e.varDecl) = ofVar d := by
  cases d with
  | none => rfl
  | some d => exact e.flatMap_ofIdent_idents .var d.names

theorem ofConst_constDecl (d : Option ConstDecl) : ofConst (d.map e.constDecl) = ofConst d := by
  cases d with
  | none => rfl
  | some d => exact e.ofIdent_ident .constant d.name

theorem ofParams_params (list : List (Option ParamGroup)) :
    ofParams (e.params list) = ofParams list := by
  apply flatMap_map_names
  intro group
  cases group with
  | none => rfl
  | some group => exact e.flatMap_ofIdent_idents .var group.names

theorem nameKind_routineKind (kind : RoutineKind) :
    (e.routineKind kind).nameKind = kind.nameKind := by
  cases kind <;> rfl

/-- An erased declaration binds the same names. -/
theorem ofDecl_decl? (d : Option Decl) : ofDecl (e.decl? d) = ofDecl d := by
  rcases d with - | ⟨d⟩ | ⟨place, list⟩ | ⟨d⟩ | ⟨place, list⟩ | ⟨h⟩ |
    ⟨place, kind, name, list, body, attached⟩
  · rfl
  · exact e.ofVar_varDecl (some d)
  · exact flatMap_map_names e.ofVar_varDecl list
  · exact e.ofConst_constDecl (some d)
  · exact flatMap_map_names e.ofConst_constDecl list
  · change ofIdent (e.routineKind h.kind).nameKind (h.name.map e.ident) = _
    rw [nameKind_routineKind, ofIdent_ident]
    rfl
  · change ofIdent (e.routineKind kind).nameKind (name.map e.ident) = _
    rw [nameKind_routineKind, ofIdent_ident]
    rfl

theorem ofDecls_decls (list : List (Option Decl)) : ofDecls (e.decls list) = ofDecls list := by
  induction list with
  | nil => rw [decls]
  | cons d rest ih =>
    change ofDecl (e.decl? d) ++ ofDecls (e.decls rest) = ofDecl d ++ ofDecls rest
    rw [ofDecl_decl?, ih]

theorem declsOf_block? (body : Option Block) :
    declsOf (e.block? body) = e.decls (declsOf body) := by
  rcases body with - | ⟨place, list, body⟩
  · rw [block?, declsOf, Option.map_none, Option.getD_none, decls]
  · rw [block?, block]
    rfl

theorem ofRoutine_params_block? (list : List (Option ParamGroup)) (body : Option Block) :
    ofRoutine (e.params list) (e.block? body) = ofRoutine list body := by
  rw [ofRoutine, ofRoutine, ofParams_params, declsOf_block?, ofDecls_decls]

/-! ### Resolution -/

mutual

/-- An erased declaration gets the same scopes as the declaration. -/
theorem attachDecl_decl (tables : List NameTable) :
    ∀ d : Decl, attachDecl tables (e.decl d) = e.keepScopes.decl (attachDecl tables d)
  | .var _ | .vars _ _ | .const _ | .consts _ _ | .header _ => by
    rw [decl, attachDecl, attachDecl, decl]
    rfl
  | .routine r => by rw [decl, attachDecl, attachDecl, decl, attachRoutine_routine tables r]

theorem attachRoutine_routine (tables : List NameTable) :
    ∀ r : Routine,
      attachRoutine tables (e.routine r) = e.keepScopes.routine (attachRoutine tables r)
  | ⟨_, _, _, _, body, _⟩ => by
    -- the routine binds the same names, so both bodies are under the same tables
    rw [routine, attachRoutine, attachRoutine, routine, ofRoutine_params_block?,
      attachBlock?_block? _ body]
    rfl

theorem attachBlock?_block? (tables : List NameTable) :
    ∀ body : Option Block,
      attachBlock? tables (e.block? body) = e.keepScopes.block? (attachBlock? tables body)
  | none => by rw [block?, attachBlock?, block?]
  | some ⟨_, list, _⟩ => by
    rw [block?, block, attachBlock?, attachBlock, attachBlock?, attachBlock, block?, block,
      attachDecls_decls tables list]
    rfl

theorem attachDecls_decls (tables : List NameTable) :
    ∀ list : List (Option Decl),
      attachDecls tables (e.decls list) = e.keepScopes.decls (attachDecls tables list)
  | [] => by rw [decls, attachDecls, decls]
  | none :: rest => by
    rw [decls, decl?, attachDecls, attachDecl?, attachDecls, attachDecl?, decls, decl?,
      attachDecls_decls tables rest]
  | some d :: rest => by
    rw [decls, decl?, attachDecls, attachDecl?, attachDecls, attachDecl?, decls, decl?,
      attachDecl_decl tables d, attachDecls_decls tables rest]

end

theorem attachPart_unitPart (tables : List NameTable) (part : UnitPart) :
    attachPart tables (e.unitPart part) = e.keepScopes.unitPart (attachPart tables part) := by
  rw [attachPart, unitPart, attachDecls_decls]
  rfl

theorem decls_append (first second : List (Option Decl)) :
    e.decls (first ++ second) = e.decls first ++ e.decls second := by
  induction first with
  | nil => rw [List.nil_append, decls, List.nil_append]
  | cons d rest ih => rw [List.cons_append, decls, ih, decls, List.cons_append]

/-- The declarations of an erased file are the erased declarations. -/
theorem decls_file (f : File) : (e.file f).decls = e.decls f.decls := by
  cases f with
  | program f => exact e.declsOf_block? f.block
  | unit f =>
    have part (p : Option UnitPart) : ((p.map e.unitPart).map UnitPart.decls).getD [] =
        e.decls ((p.map UnitPart.decls).getD []) := by
      cases p with
      | none => exact (decls.eq_1 e).symm
      | some p => rfl
    change _ ++ _ = e.decls (_ ++ _)
    rw [decls_append, ← part, ← part]
    rfl

theorem nameTable_file (f : File) : (e.file f).nameTable = f.nameTable := by
  rw [File.nameTable, File.nameTable, decls_file, ofDecls_decls]

/-- Resolution attaches the same scopes to an erased file. -/
theorem resolve_file (f : File) : (e.file f).resolve = e.keepScopes.file f.resolve := by
  have names := e.nameTable_file f
  rw [File.resolve_eq, File.resolve_eq]
  cases f with
  | program f =>
    rw [file] at names ⊢
    rw [attachFile, names, attachFile, file, program, program, attachBlock?_block?]
    rfl
  | unit f =>
    have part (p : Option UnitPart) (tables : List NameTable) :
        (p.map e.unitPart).map (attachPart tables) =
          (p.map (attachPart tables)).map e.keepScopes.unitPart := by
      cases p with
      | none => rfl
      | some p => exact congrArg some (e.attachPart_unitPart tables p)
    rw [file] at names ⊢
    rw [attachFile, names, attachFile, file, unit, unit, part, part]
    rfl

/-! ### Defects -/

/-- What is left of a defect. -/
def defect : Defect → Defect
  | .unnamed place kind => .unnamed (e.position place) kind
  | other => other

variable {e} in
/-- The defects of a list are those of its items. -/
theorem flatMap_map_defects {α : Type} {erase : α → α} {found left : α → List Defect}
    (same : ∀ a, left (erase a) = (found a).map e.defect) (list : List α) :
    (list.map erase).flatMap left = (list.flatMap found).map e.defect := by
  rw [List.flatMap_map, List.map_flatMap]
  exact List.flatMap_congr fun a _ => same a

theorem identDefects_ident (place : Position) (kind : Kind) (ident : Option Ident) :
    identDefects (e.position place) kind (ident.map e.ident) =
      (identDefects place kind ident).map e.defect := by
  cases ident with
  | none => rfl
  | some ident =>
    change (if ident.name = "" then _ else _) = (if ident.name = "" then _ else _ : List _).map _
    split <;> rfl

theorem flatMap_identDefects_idents (place : Position) (kind : Kind)
    (names : List (Option Ident)) :
    (e.idents names).flatMap (identDefects (e.position place) kind) =
      (names.flatMap (identDefects place kind)).map e.defect :=
  flatMap_map_defects (e.identDefects_ident place kind) names

theorem varDefects_varDecl (d : Option VarDecl) :
    varDefects (d.map e.varDecl) = (varDefects d).map e.defect := by
  cases d with
  | none => rfl
  | some d => exact e.flatMap_identDefects_idents d.position _ d.names

theorem constDefects_constDecl (d : Option ConstDecl) :
    constDefects (d.map e.constDecl) = (constDefects d).map e.defect := by
  cases d with
  | none => rfl
  | some d => exact e.identDefects_ident d.position _ d.name

theorem paramDefects_params (list : List (Option ParamGroup)) :
    paramDefects (e.params list) = (paramDefects list).map e.defect := by
  apply flatMap_map_defects
  intro group
  cases group with
  | none => rfl
  | some group => exact e.flatMap_identDefects_idents group.position _ group.names

theorem nodeKind_header (h : Header) : (e.header h).nodeKind = h.nodeKind := by
  obtain ⟨place, kind, name, list⟩ := h
  cases kind <;> rfl

mutual

/-- An erased declaration has the defects of the declaration, up to positions. -/
theorem declDefects_decl : ∀ d : Decl, declDefects (e.decl d) = (declDefects d).map e.defect
  | .var d => by
    rw [decl, declDefects, declDefects]
    exact e.varDefects_varDecl (some d)
  | .vars _ list => by
    rw [decl, declDefects, declDefects]
    exact flatMap_map_defects e.varDefects_varDecl list
  | .const d => by
    rw [decl, declDefects, declDefects]
    exact e.constDefects_constDecl (some d)
  | .consts _ list => by
    rw [decl, declDefects, declDefects]
    exact flatMap_map_defects e.constDefects_constDecl list
  | .header h => by
    -- the parameters of a header have no defects
    rw [decl, declDefects, declDefects, nodeKind_header]
    exact e.identDefects_ident h.position _ h.name
  | .routine r => by rw [decl, declDefects, declDefects, routineDefects_routine r]

theorem routineDefects_routine :
    ∀ r : Routine, routineDefects (e.routine r) = (routineDefects r).map e.defect
  | ⟨place, kind, name, list, body, attached⟩ => by
    have sameKind := e.kind_node (.decl (.routine ⟨place, kind, name, list, body, attached⟩))
    rw [node, decl, routine] at sameKind
    change Routine.nodeKind _ = Routine.nodeKind _ at sameKind
    rw [routine, routineDefects, routineDefects, sameKind, identDefects_ident, paramDefects_params,
      blockDefects_block? body, List.map_append, List.map_append]

theorem blockDefects_block? :
    ∀ body : Option Block, blockDefects (e.block? body) = (blockDefects body).map e.defect
  | none => by rw [block?, blockDefects, List.map_nil]
  | some ⟨_, list, _⟩ => by
    rw [block?, block, blockDefects, blockDefects, defectsOf_decls list]

theorem defectsOf_decls :
    ∀ list : List (Option Decl), defectsOf (e.decls list) = (defectsOf list).map e.defect
  | [] => by rw [decls, defectsOf, List.map_nil]
  | none :: rest => by
    rw [decls, decl?, defectsOf, defectsOf, List.map_cons, defectsOf_decls rest]
    rfl
  | some d :: rest => by
    rw [decls, decl?, defectsOf, defectsOf, List.map_append, declDefects_decl d,
      defectsOf_decls rest]

end

theorem defects_file (f : File) : (e.file f).defects = f.defects.map e.defect := by
  rw [File.defects_eq, File.defects_eq, decls_file, defectsOf_decls]

/-! ### Compiling -/

/-- What is left of a compile error. -/
def compileError : CompileError → CompileError
  | .resolution defects => .resolution (defects.map e.defect)
  | .generation cause => .generation (e.error cause)

/-- An erased file compiles to the text of the file, or fails as the file does. -/
theorem compile_file (f : File) :
    (e.file f).compile = f.compile.mapError e.keepScopes.compileError := by
  rw [File.compile, File.compile, defects_file, List.isEmpty_map, resolve_file]
  split
  · -- scopes are kept, so the generator is in step to the end
    rcases Generation.mirrors_generate e.keepScopes f.resolve with same | ⟨lost, -⟩
    · rw [same]
      cases f.resolve.generate <;> rfl
    · cases lost
  · rfl

end Erasure

/-! ### Errors that are alike -/

/-- Errors of the same sort with the same trail and reason. -/
def GenerationError.Alike : GenerationError → GenerationError → Prop
  | .unsupported _ trace reason, .unsupported _ trace' reason' => trace = trace' ∧ reason = reason'
  | .invalidValue _ trace reason, .invalidValue _ trace' reason' =>
    trace = trace' ∧ reason = reason'
  | .noScope trace, .noScope trace' => trace = trace'
  | _, _ => False

/-- Errors of the same sort: as many defects, or errors of the generator that are alike. -/
def CompileError.Alike : CompileError → CompileError → Prop
  | .resolution defects, .resolution defects' => defects.length = defects'.length
  | .generation cause, .generation cause' => cause.Alike cause'
  | _, _ => False

/-- What is left of an error is still of its sort, with its trail and reason. -/
theorem GenerationError.alike_of_error_eq {e : Erasure} {cause other : GenerationError}
    (same : e.error cause = e.error other) : cause.Alike other := by
  cases cause with
  | unsupported node trace reason =>
    cases other with
    | unsupported node' trace' reason' =>
      obtain ⟨-, sameTrace, sameReason⟩ := GenerationError.unsupported.inj same
      exact ⟨sameTrace, sameReason⟩
    | _ => cases same
  | invalidValue node trace reason =>
    cases other with
    | invalidValue node' trace' reason' =>
      obtain ⟨-, sameTrace, sameReason⟩ := GenerationError.invalidValue.inj same
      exact ⟨sameTrace, sameReason⟩
    | _ => cases same
  | noScope trace =>
    cases other with
    | noScope trace' => exact GenerationError.noScope.inj same
    | _ => cases same

/-- As many defects are left as there were. -/
theorem CompileError.alike_of_compileError_eq {e : Erasure} {error other : CompileError}
    (same : e.compileError error = e.compileError other) : error.Alike other := by
  cases error with
  | resolution defects =>
    cases other with
    | resolution defects' =>
      have counts := congrArg List.length (CompileError.resolution.inj same)
      rwa [List.length_map, List.length_map] at counts
    | generation cause => cases same
  | generation cause =>
    cases other with
    | resolution defects => cases same
    | generation cause' =>
      exact GenerationError.alike_of_error_eq (CompileError.generation.inj same)

/-- Files that differ only in positions, declared types, headings, uses clauses, comments,
parameters of forward headers and scopes compile to the same text, or for both compiling fails
with the same sort of error. -/
theorem File.compile_indifferent {file other : File}
    (same : Erasure.all.file file = Erasure.all.file other) :
    (∃ text, file.compile = .ok text ∧ other.compile = .ok text) ∨
      ∃ error error', file.compile = .error error ∧ other.compile = .error error' ∧
        error.Alike error' := by
  -- both files compile as what is left of them, which is the same
  have compiled : file.compile.mapError Erasure.all.keepScopes.compileError =
      other.compile.mapError Erasure.all.keepScopes.compileError := by
    rw [← Erasure.compile_file, ← Erasure.compile_file, same]
  cases first : file.compile with
  | ok text =>
    rw [first] at compiled
    cases second : other.compile with
    | ok text' =>
      rw [second] at compiled
      cases compiled
      exact .inl ⟨text, rfl, rfl⟩
    | error error =>
      rw [second] at compiled
      cases compiled
  | error error =>
    rw [first] at compiled
    cases second : other.compile with
    | ok text =>
      rw [second] at compiled
      cases compiled
    | error error' =>
      rw [second] at compiled
      refine .inr ⟨error, error', rfl, rfl, ?_⟩
      exact CompileError.alike_of_compileError_eq (Except.error.inj compiled)

section Sample

/-- A unit that announces a function and has a constant, with what is kept for diagnostics. -/
def annotatedUnit (place : Position) (type : Option TypeRef) (heading : Option Heading)
    (uses : Option UsesClause) (params : List (Option ParamGroup)) (scope : Option Scope) : File :=
  let announced : Header := ⟨place, .function type, some ⟨place, "Next"⟩, params⟩
  let first : ConstDecl :=
    ⟨place, some ⟨place, "First"⟩, type, some (.call place (some ⟨place, "Next"⟩) [])⟩
  .unit
    { position := place, heading, scope
      interfacePart := some ⟨place, uses, [some (.header announced)]⟩
      implementationPart := some ⟨place, uses, [some (.const first)]⟩ }

/-- The unit with all of it, some of which is malformed. -/
def fullUnit : File :=
  annotatedUnit ⟨"a.pas", 7, 2, 1⟩ (some (.inbuilt .unknown "Integer")) (some ⟨.unknown, none⟩)
    (some ⟨.unknown, [none]⟩) [none] (some ⟨.empty, []⟩)

/-- The unit without any of it. -/
def plainUnit : File :=
  annotatedUnit .unknown none none none [] none

/-- Both units call the function. -/
theorem File.compile_indifferent_unit :
    Erasure.all.file fullUnit = Erasure.all.file plainUnit ∧
      plainUnit.compile = .ok "var First=Next();" ∧ fullUnit.compile = .ok "var First=Next();" := by
  have same : Erasure.all.file fullUnit = Erasure.all.file plainUnit := rfl
  have plain : plainUnit.compile = .ok "var First=Next();" :=
    eq_ok_of_mem_toOption (by decide +kernel)
  refine ⟨same, plain, ?_⟩
  rcases File.compile_indifferent same with ⟨text, full, again⟩ | ⟨-, error, -, failed, -⟩
  · rw [full, ← again, plain]
  · rw [plain] at failed
    cases failed

end Sample

end PascalCompiler
