import PascalCompiler.Proofs.Resolution.Defects
import PascalCompiler.Proofs.Resolution.Detached

/-!
# What resolution does

Resolution gives a scope to a file and to every routine in it. The scope of a file is
inside no other, that of a routine is inside the scope of the file or routine around it.
Each has an entry for the names of its own level. Where a name is declared more than once,
the last declaration counts.

## Main definitions

* `Resolution.Records`: a table with an entry for every name of a level
* `File.Encloses`: the routines in a file, with the scopes around them

## Main results

* `Resolution.records_ofBindings`: the table of a level records it
* `File.scope_of_encloses`: the scopes of the routines in a resolved file
* `File.resolve_meets_specification`: what resolution changes, attaches and reports
-/

namespace PascalCompiler

open Resolution

/-! ### The table of a level -/

/-- A table says of each key what the last entry of the level says. -/
structure Resolution.Records (names : NameTable) (level : Lexical.Level) : Prop where
  last : ∀ key kind, names.find? key = some kind ↔
    ∃ before after, level = before ++ (key, kind) :: after ∧ ∀ entry ∈ after, entry.1 ≠ key
  absent : ∀ key, names.find? key = none ↔ ∀ entry ∈ level, entry.1 ≠ key

theorem Resolution.records_ofBindings (params : List (Option ParamGroup))
    (decls : List (Option Decl)) :
    Records (.ofBindings (ofParams params ++ ofDecls decls)) (Lexical.levelOf params decls) := by
  have find (key : String) : (NameTable.ofBindings (ofParams params ++ ofDecls decls)).find? key =
      (Lexical.levelOf params decls).reverse.lookup key := by
    rw [Lexical.find?_ofBindings, Lexical.levelOf_eq]
  refine ⟨fun key kind => ?_, fun key => ?_⟩
  · rw [find, Lexical.lookup_reverse_eq_some_iff]
  · rw [find, Lexical.lookup_reverse_eq_none_iff]

/-! ### Routines and the scopes around them -/

/-- A routine somewhere in a file, and the scope attached to the file or routine around it. -/
inductive File.Encloses (file : File) : Option Scope → Routine → Prop where
  | atFile {r : Routine} (isDecl : some (.routine r) ∈ file.decls) : Encloses file file.scope r
  | inRoutine {around : Option Scope} {outer r : Routine} (encloses : Encloses file around outer)
      (isDecl : some (.routine r) ∈ declsOf outer.block) : Encloses file outer.scope r

theorem Resolution.exists_of_mem_attachDecls {tables : List NameTable} {decls : List (Option Decl)}
    {r : Routine} (mem : some (.routine r) ∈ attachDecls tables decls) :
    ∃ bare : Routine, r = attachRoutine tables bare := by
  rw [attachDecls_eq_map] at mem
  obtain ⟨value, -, same⟩ := List.mem_map.mp mem
  obtain ⟨d, rfl, attached⟩ := Option.map_eq_some_iff.mp same
  cases d with
  | routine bare =>
    rw [attachDecl] at attached
    exact ⟨bare, (Decl.routine.inj attached).symm⟩
  | _ =>
    rw [attachDecl] at attached
    cases attached

theorem Resolution.ofDecls_attachDecls (tables : List NameTable) (decls : List (Option Decl)) :
    ofDecls (attachDecls tables decls) = ofDecls decls := by
  rw [← ofDecls_detachDecls, detachDecls_attachDecls, ofDecls_detachDecls]

/-- A routine with scopes attached has a scope for its own level. -/
theorem Resolution.scope_attachRoutine (tables : List NameTable) (bare : Routine) :
    ∃ scope, (attachRoutine tables bare).scope = some scope ∧ scope.outer = tables ∧
      declsOf (attachRoutine tables bare).block =
        attachDecls scope.tables (declsOf bare.block) ∧
      Records scope.names (Lexical.levelOf (attachRoutine tables bare).params
        (declsOf (attachRoutine tables bare).block)) := by
  obtain ⟨position, kind, name, params, block, scope⟩ := bare
  rw [attachRoutine]
  refine ⟨_, rfl, rfl, declsOf_attachBlock? _ block, ?_⟩
  have level : Lexical.levelOf params (declsOf (attachBlock?
      (NameTable.ofBindings (ofRoutine params block) :: tables) block)) =
      Lexical.levelOf params (declsOf block) := by
    rw [Lexical.levelOf_eq, Lexical.levelOf_eq, declsOf_attachBlock?, ofDecls_attachDecls]
  rw [level]
  exact records_ofBindings params (declsOf block)

namespace File

/-- The routines in a resolved file have been given scopes, inside that of what is around. -/
theorem exists_of_encloses {file : File} {around : Option Scope} {r : Routine}
    (encloses : Encloses file.resolve around r) :
    ∃ (outer : Scope) (bare : Routine),
      around = some outer ∧ r = attachRoutine outer.tables bare := by
  induction encloses with
  | atFile isDecl =>
    rw [decls_resolve] at isDecl
    obtain ⟨bare, rfl⟩ := exists_of_mem_attachDecls isDecl
    exact ⟨⟨file.nameTable, []⟩, bare, file.scope_resolve, rfl⟩
  | inRoutine _ isDecl ih =>
    obtain ⟨outer, bare, rfl, rfl⟩ := ih
    obtain ⟨scope, isScope, -, decls, -⟩ := scope_attachRoutine outer.tables bare
    rw [decls] at isDecl
    obtain ⟨inner, rfl⟩ := exists_of_mem_attachDecls isDecl
    exact ⟨scope, inner, isScope, rfl⟩

/-- Every routine in a resolved file has a scope, directly inside that of what is around. -/
theorem scope_of_encloses {file : File} {around : Option Scope} {r : Routine}
    (encloses : Encloses file.resolve around r) :
    ∃ scope outer : Scope, r.scope = some scope ∧ around = some outer ∧
      scope.outer = outer.tables ∧
      Records scope.names (Lexical.levelOf r.params (declsOf r.block)) := by
  obtain ⟨outer, bare, rfl, rfl⟩ := exists_of_encloses encloses
  obtain ⟨scope, isScope, isOuter, -, records⟩ := scope_attachRoutine outer.tables bare
  exact ⟨scope, outer, isScope, rfl, isOuter, records⟩

/-- The scope of a resolved file is inside no other. -/
theorem exists_scope_resolve (file : File) :
    ∃ scope : Scope, file.resolve.scope = some scope ∧ scope.outer = [] ∧
      Records scope.names (Lexical.levelOf [] file.resolve.decls) := by
  have level : Lexical.levelOf [] file.resolve.decls = Lexical.levelOf [] file.decls := by
    rw [Lexical.levelOf_eq, Lexical.levelOf_eq, decls_resolve, ofDecls_attachDecls]
  rw [level]
  exact ⟨⟨file.nameTable, []⟩, file.scope_resolve, rfl, records_ofBindings [] file.decls⟩

/-- Resolution changes nothing but scopes. Each file and routine gets a scope, inside that of
what is around, with the last declaration of each name at its level. The answer is the list
of all defects, in the order in which the file is read, or that there are none. -/
theorem resolve_meets_specification (file : File) :
    file.resolve.detach = file.detach ∧
    (∃ scope : Scope, file.resolve.scope = some scope ∧ scope.outer = [] ∧
      Records scope.names (Lexical.levelOf [] file.resolve.decls)) ∧
    (∀ around r, Encloses file.resolve around r →
      ∃ scope outer : Scope, r.scope = some scope ∧ around = some outer ∧
        scope.outer = outer.tables ∧
        Records scope.names (Lexical.levelOf r.params (declsOf r.block))) ∧
    ∃ sites : List (List Nat × Defect),
      sites.Pairwise (fun first second => first.1 < second.1) ∧
      (∀ address defect, (address, defect) ∈ sites ↔
        Defective Examined file.node address defect) ∧
      Session.answerFile file .resolve =
        (if sites = [] then .done else .failed (.resolution (sites.map Prod.snd)),
          file.resolve) := by
  obtain ⟨sites, sorted, all, same⟩ := file.inOrder_defects
  refine ⟨file.detach_resolve, file.exists_scope_resolve,
    fun _ _ encloses => scope_of_encloses encloses, sites, sorted, all, ?_⟩
  rw [Session.answerFile, same]
  congr 1
  rw [← same]
  cases sites <;> rfl

/-- A program with a forward header, the parameter of which is missing. -/
def headerProgram : File :=
  let header : Header := { name := some ⟨.unknown, "p"⟩, params := [none] }
  .program { block := some ⟨.unknown, [some (.header header)], some ⟨.unknown, []⟩⟩ }

/-- A missing parameter of a forward header is not reported. -/
theorem header_parameter_not_reported :
    Defective (fun _ _ => True) headerProgram.node [2, 0, 1] .noParameterDeclaration ∧
      (Session.answerFile headerProgram .resolve).1 = .done := by
  refine ⟨?_, rfl⟩
  refine .inside rfl trivial (.inside rfl trivial (.here rfl trivial rfl))

end File

end PascalCompiler
