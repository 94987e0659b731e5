import PascalCompiler.Proofs.Resolution.ByLevel

/-!
# One traversal resolves all levels

While a file is resolved, its levels grow: what is attached to a routine is read from tables to
which names are still added when the routine is done. In the end, the scopes are those of the
complete levels, as if the table of each level had been made before any level inside of it.

What a step at a level does can be told from the declarations alone. It adds their bindings to
the level and their defects to those found so far, and opens levels of its own. Nothing that
happens later touches these levels, so what the step has attached depends on the later steps only
by the tables of the levels around.

## Main definitions

* `Resolution.Adds`: a step that declares names at a level and reports defects
* `Resolution.Traverses`: a step that opens levels inside of a level as well

## Main results

* `Resolution.traverses_decls`: what resolving a list of declarations does
* `File.resolve_eq`, `File.defects_eq`: resolution gives the scopes and defects of all levels
-/

namespace PascalCompiler

/-- A level at which some names are declared. -/
def Level.declareAll (bindings : List Resolution.Binding) (level : Level) : Level :=
  { level with
    names := bindings.foldl (fun table (name, kind) => table.declare name kind) level.names }

namespace Resolution

open Forest (tables modify_append modify_modify length_modify tables_append)

theorem declareAll_append (first second : List Binding) :
    Level.declareAll (first ++ second) = Level.declareAll second ∘ Level.declareAll first := by
  funext level
  rw [Function.comp_apply, Level.declareAll, Level.declareAll, Level.declareAll, List.foldl_append]

theorem modify_declareAll_nil (number : Nat) (levels : List Level) :
    Forest.modify (Level.declareAll []) number levels = levels := by
  induction levels with
  | nil => rfl
  | cons level earlier ih =>
    rw [Forest.modify, ih]
    exact ite_self _

/-! ### Steps that declare names -/

/-- The step declares the names at the level, reports the defects, and does nothing else. -/
def Adds (level : Nat) (step : Resolver Unit) (bindings : List Binding) (found : List Defect) :
    Prop :=
  ∀ levels defects, step.run ⟨⟨levels⟩, defects⟩ =
    ((), ⟨⟨Forest.modify (Level.declareAll bindings) level levels⟩, defects ++ found⟩)

namespace Adds

variable {α : Type} {level : Nat}

theorem nothing : Adds level (pure ()) [] [] := by
  intro levels defects
  rw [modify_declareAll_nil, List.append_nil]
  rfl

theorem report (defect : Defect) : Adds level (Resolver.report defect) [] [defect] := by
  intro levels defects
  rw [modify_declareAll_nil]
  rfl

/-- The names of a step are declared after those of the step before. -/
theorem andThen {first second : Resolver Unit} {bindings bindings' : List Binding}
    {found found' : List Defect} (adds : Adds level first bindings found)
    (adds' : Adds level second bindings' found') :
    Adds level (do first; second) (bindings ++ bindings') (found ++ found') := by
  intro levels defects
  rw [StateT.run_bind, adds, declareAll_append, ← modify_modify, ← List.append_assoc]
  exact adds' _ _

theorem forM {step : α → Resolver Unit} {bindings : α → List Binding} {found : α → List Defect}
    (each : ∀ a, Adds level (step a) (bindings a) (found a)) (list : List α) :
    Adds level (list.forM step) (list.flatMap bindings) (list.flatMap found) := by
  induction list with
  | nil => exact nothing
  | cons a rest ih => exact (each a).andThen ih

end Adds

section Declarations

variable (level : Nat)

theorem adds_add (position : Position) (node : Kind) (kind : NameKind) (ident : Option Ident) :
    Adds level (Resolver.add position node kind level ident) (ofIdent kind ident)
      (identDefects position node ident) := by
  cases ident with
  | none => exact .report _
  | some ident =>
    rw [Resolver.add, ofIdent, identDefects]
    split
    · exact .report _
    · intro levels defects
      rw [List.append_nil]
      rfl

theorem adds_varDecl (d : Option VarDecl) :
    Adds level (Resolver.varDecl level d) (ofVar d) (varDefects d) := by
  cases d with
  | none => exact .report _
  | some d => exact .forM (adds_add level _ _ _) d.names

theorem adds_constDecl (d : Option ConstDecl) :
    Adds level (Resolver.constDecl level d) (ofConst d) (constDefects d) := by
  cases d with
  | none => exact .report _
  | some d => exact adds_add level _ _ _ d.name

theorem adds_params (params : List (Option ParamGroup)) :
    Adds level (params.forM (Resolver.paramGroup level)) (ofParams params)
      (paramDefects params) := by
  refine .forM (fun group => ?_) params
  cases group with
  | none => exact .report _
  | some group => exact .forM (adds_add level _ _ _) group.names

end Declarations

/-! ### Steps that open levels -/

theorem run_openLevel (parent : Option Nat) (levels : List Level) (defects : List Defect) :
    (Resolver.openLevel parent).run ⟨⟨levels⟩, defects⟩ =
      (levels.length, ⟨⟨⟨.empty, parent⟩ :: levels⟩, defects⟩) := rfl

/-- The step declares the names at the level, reports the defects, and opens levels. Whatever is
declared around and opened afterwards, what it has attached is the given result for the tables of
the level. -/
def Traverses {α : Type} (level : Nat) (step : Resolver (Forest → α)) (bindings : List Binding)
    (found : List Defect) (result : List NameTable → α) : Prop :=
  ∀ levels defects, level < levels.length → ∃ opened attached,
    step.run ⟨⟨levels⟩, defects⟩ =
      (attached,
        ⟨⟨opened ++ Forest.modify (Level.declareAll bindings) level levels⟩, defects ++ found⟩) ∧
    ∀ later around, around.length = levels.length →
      attached ⟨later ++ (opened ++ around)⟩ = result (tables around level)

namespace Traverses

variable {α β γ : Type} {level : Nat} {bindings bindings' : List Binding}
  {found found' : List Defect} {result : List NameTable → α} {result' : List NameTable → β}

theorem pure (a : α) : Traverses level (pure fun _ => a) [] [] fun _ => a := by
  intro levels defects _
  refine ⟨[], fun _ => a, ?_, fun _ _ _ => rfl⟩
  rw [modify_declareAll_nil, List.append_nil]
  rfl

/-- Names are declared before a step. -/
theorem after {step : Resolver Unit} {next : Resolver (Forest → α)}
    (adds : Adds level step bindings found) (rest : Traverses level next bindings' found' result) :
    Traverses level (do step; next) (bindings ++ bindings') (found ++ found') result := by
  intro levels defects isOpen
  rw [StateT.run_bind, adds, declareAll_append, ← modify_modify, ← List.append_assoc]
  obtain ⟨opened, attached, run, reads⟩ := rest
    (Forest.modify (Level.declareAll bindings) level levels) (defects ++ found)
    (by rwa [length_modify])
  exact ⟨opened, attached, run, fun later around same =>
    reads later around (same.trans (length_modify _ _ _).symm)⟩

theorem declared {step : Resolver Unit} (adds : Adds level step bindings found) (a : α) :
    Traverses level
      (do
        step
        return fun _ => a)
      bindings found fun _ => a := by
  have traverses := after adds (pure a)
  rwa [List.append_nil, List.append_nil] at traverses

/-- One step after the other. The second leaves the levels alone that the first has opened. -/
theorem both {first : Resolver (Forest → α)} {second : Resolver (Forest → β)}
    (step : Traverses level first bindings found result)
    (next : Traverses level second bindings' found' result') (combine : α → β → γ) :
    Traverses level
      (do
        let a ← first
        let b ← second
        return fun forest => combine (a forest) (b forest))
      (bindings ++ bindings') (found ++ found')
      fun outer => combine (result outer) (result' outer) := by
  intro levels defects isOpen
  obtain ⟨opened, attached, run, reads⟩ := step levels defects isOpen
  obtain ⟨opened', attached', run', reads'⟩ := next
    (opened ++ Forest.modify (Level.declareAll bindings) level levels) (defects ++ found) (by
      rw [List.length_append, length_modify]
      omega)
  refine ⟨opened' ++ opened, fun forest => combine (attached forest) (attached' forest), ?_, ?_⟩
  · rw [modify_append _ _ (by rwa [length_modify]), modify_modify, ← declareAll_append,
      ← List.append_assoc, List.append_assoc defects] at run'
    rw [StateT.run_bind, run]
    change (second >>= fun b => _).run _ = _
    rw [StateT.run_bind, run']
    rfl
  · intro later around same
    have inner := reads (later ++ opened') around same
    have outer := reads' later (opened ++ around) (by
      rw [List.length_append, List.length_append, length_modify, same])
    rw [tables_append opened (by omega)] at outer
    rw [List.append_assoc] at inner
    rw [List.append_assoc]
    exact congr (congrArg combine inner) outer

theorem map {step : Resolver (Forest → α)} (traverses : Traverses level step bindings found result)
    (f : α → β) :
    Traverses level
      (do
        let a ← step
        return fun forest => f (a forest))
      bindings found fun outer => f (result outer) := by
  have both := traverses.both (pure ()) fun a _ => f a
  rwa [List.append_nil, List.append_nil] at both

/-- A level is opened, and all names of a step are declared at it. -/
theorem inside {step : Nat → Resolver (Forest → α)}
    (traverses : ∀ own, Traverses own (step own) bindings found result)
    (attach : α → Option Scope → β) :
    Traverses level
      (do
        let own ← Resolver.openLevel (some level)
        let a ← step own
        return fun forest => attach (a forest) (forest.scope? own))
      [] found fun outer =>
        let names := NameTable.ofBindings bindings
        attach (result (names :: outer)) (some ⟨names, outer⟩) := by
  intro levels defects isOpen
  obtain ⟨opened, attached, run, reads⟩ := traverses levels.length
    (⟨.empty, some level⟩ :: levels) defects (by simp)
  let own : Level := ⟨.ofBindings bindings, some level⟩
  refine ⟨opened ++ [own], fun forest => attach (attached forest) (forest.scope? levels.length),
    ?_, fun later around same => ?_⟩
  · rw [Forest.modify, if_pos rfl] at run
    rw [modify_declareAll_nil, List.append_assoc, StateT.run_bind, run_openLevel]
    change (step levels.length >>= fun a => _).run _ = _
    rw [StateT.run_bind, run]
    rfl
  · have visible : tables (own :: around) levels.length = own.names :: tables around level := by
      rw [tables, if_pos same.symm]
    have inner := reads later (own :: around) (by rw [List.length_cons, List.length_cons, same])
    rw [visible] at inner
    have scope : Forest.scope? ⟨later ++ (opened ++ own :: around)⟩ levels.length =
        some ⟨own.names, tables around level⟩ := by
      rw [Forest.scope?, ← List.append_assoc, tables_append _ (by simp [same]), visible]
    rw [List.append_assoc, List.singleton_append]
    exact congr (congrArg attach inner) scope

end Traverses

mutual

/-- Resolving a declaration binds its names, finds its defects, and attaches the scopes of its
levels. -/
theorem traverses_decl (level : Nat) :
    ∀ d : Decl, Traverses level (Resolver.decl level d) (ofDecl (some d)) (declDefects d)
      fun outer => attachDecl outer d
  | .var d => by
    rw [Resolver.decl, ofDecl, declDefects]
    simp only [attachDecl]
    exact .declared (adds_varDecl level (some d)) _
  | .vars position list => by
    rw [Resolver.decl, ofDecl, declDefects]
    simp only [attachDecl]
    exact .declared (.forM (adds_varDecl level) list) _
  | .const d => by
    rw [Resolver.decl, ofDecl, declDefects]
    simp only [attachDecl]
    exact .declared (adds_constDecl level (some d)) _
  | .consts position list => by
    rw [Resolver.decl, ofDecl, declDefects]
    simp only [attachDecl]
    exact .declared (.forM (adds_constDecl level) list) _
  | .header h => by
    rw [Resolver.decl, ofDecl, declDefects]
    simp only [attachDecl]
    exact .declared (adds_add level _ _ _ h.name) _
  | .routine r => by
    rw [Resolver.decl, ofDecl, declDefects]
    simp only [attachDecl]
    exact (traverses_routine level r).map Decl.routine

theorem traverses_routine (level : Nat) :
    ∀ r : Routine, Traverses level (Resolver.routine level r) (ofIdent r.kind.nameKind r.name)
      (routineDefects r) fun outer => attachRoutine outer r
  | ⟨position, kind, name, params, block, scope⟩ => by
    rw [Resolver.routine, routineDefects, List.append_assoc]
    simp only [attachRoutine]
    have inner (own : Nat) := Traverses.after (adds_params own params) (traverses_block? own block)
    have opened : Traverses level _ _ _ _ :=
      .inside inner fun block scope => Routine.mk position kind name params block scope
    have named := Traverses.after (adds_add level position
      (Routine.nodeKind ⟨position, kind, name, params, block, scope⟩) kind.nameKind name) opened
    rw [List.append_nil] at named
    exact named

theorem traverses_block? (level : Nat) :
    ∀ block : Option Block, Traverses level (Resolver.block? level block)
      (ofDecls (declsOf block)) (blockDefects block) fun outer => attachBlock? outer block
  | none => by
    rw [Resolver.block?, blockDefects]
    simp only [attachBlock?]
    exact .pure none
  | some ⟨position, list, body⟩ => by
    rw [Resolver.block?, blockDefects]
    simp only [attachBlock?, attachBlock]
    exact (traverses_decls level list).map fun list => some (Block.mk position list body)

theorem traverses_decls (level : Nat) :
    ∀ list : List (Option Decl), Traverses level (Resolver.decls level list) (ofDecls list)
      (defectsOf list) fun outer => attachDecls outer list
  | [] => by
    rw [Resolver.decls, defectsOf]
    simp only [attachDecls]
    exact .pure []
  | none :: rest => by
    rw [Resolver.decls, defectsOf]
    simp only [attachDecls, attachDecl?]
    exact .after (.report .noDeclaration) ((traverses_decls level rest).map _)
  | some d :: rest => by
    rw [Resolver.decls, defectsOf]
    simp only [attachDecls, attachDecl?]
    exact (traverses_decl level d).both (traverses_decls level rest) fun d rest => some d :: rest

end

/-! ### Files -/

theorem traverses_unitPart (level : Nat) (part : Option UnitPart) :
    Traverses level (Resolver.unitPart level part)
      (ofDecls ((part.map UnitPart.decls).getD [])) (defectsOf ((part.map UnitPart.decls).getD []))
      fun outer => part.map (attachPart outer) := by
  cases part with
  | none =>
    rw [Option.map_none, Option.getD_none, defectsOf]
    exact .pure none
  | some part =>
    exact (traverses_decls level part.decls).map fun list => some { part with decls := list }

/-- The whole resolution, with a level around everything else. -/
theorem run_of_traverses {α β : Type} {step : Nat → Resolver (Forest → α)}
    {bindings : List Binding} {found : List Defect} {result : List NameTable → α}
    (traverses : ∀ level, Traverses level (step level) bindings found result)
    (attach : α → Option Scope → β) :
    ∃ attached forest,
      (do
        let level ← Resolver.openLevel none
        let a ← step level
        return fun forest => attach (a forest) (forest.scope? level) : Resolver _).run {} =
          (attached, ⟨forest, found⟩) ∧
      attached forest =
        attach (result [.ofBindings bindings]) (some ⟨.ofBindings bindings, []⟩) := by
  obtain ⟨opened, attached, run, reads⟩ := traverses 0 [⟨.empty, none⟩] [] Nat.zero_lt_one
  rw [Forest.modify, if_pos List.length_nil.symm] at run
  let top : Level := ⟨.ofBindings bindings, none⟩
  refine ⟨fun forest => attach (attached forest) (forest.scope? 0), ⟨opened ++ [top]⟩, ?_, ?_⟩
  · rw [StateT.run_bind, run_openLevel]
    change (step 0 >>= fun a => _).run _ = _
    rw [StateT.run_bind, run]
    rfl
  · have inner := reads [] [top] rfl
    have scope : Forest.scope? ⟨opened ++ [top]⟩ 0 = some ⟨top.names, []⟩ := by
      rw [Forest.scope?, tables_append _ Nat.zero_lt_one]
      rfl
    exact congr (congrArg attach inner) scope

theorem run_file (file : File) :
    ∃ attached forest,
      (Resolver.file file).run {} = (attached, ⟨forest, defectsOf file.decls⟩) ∧
      attached forest = attachFile file := by
  cases file with
  | program f =>
    have run := run_of_traverses (fun level => traverses_block? level f.block)
      fun block scope => File.program { f with block, scope }
    rw [blockDefects_eq] at run
    exact run
  | unit f =>
    have both (level : Nat) := (traverses_unitPart level f.interfacePart).both
      (traverses_unitPart level f.implementationPart) Prod.mk
    have run := run_of_traverses both fun parts scope =>
      File.unit { f with interfacePart := parts.1, implementationPart := parts.2, scope }
    rw [← defectsOf_append] at run
    simp only [ofDecls, ← List.flatMap_append] at run
    exact run

end Resolution

namespace File

/-- Resolving a file attaches the scopes of its levels. -/
theorem resolve_eq (file : File) : file.resolve = Resolution.attachFile file := by
  obtain ⟨attached, forest, run, same⟩ := Resolution.run_file file
  rw [resolve, run]
  exact same

theorem scope_resolve (file : File) : file.resolve.scope = some ⟨file.nameTable, []⟩ := by
  rw [resolve_eq]
  cases file <;> rfl

/-- Resolving a file finds all defects. -/
theorem defects_eq (file : File) : file.defects = Resolution.defectsOf file.decls := by
  obtain ⟨attached, forest, run, -⟩ := Resolution.run_file file
  rw [defects, run]

end File

end PascalCompiler
