import PascalCompiler.Proofs.Lexical.Translator
import PascalCompiler.Proofs.Resolution.ByLevel

/-!
# Levels and name tables

Resolution keeps the names of a level in a table sorted by key; the lexical
translator keeps them in source order and lets the last one count. Both say the
same of every key, at one level and along a chain of levels.

## Main definitions

* `Lexical.Mirrors`: name tables that say what levels say

## Main results

* `Lexical.find?_ofBindings`: a table gives the last binding of a key
* `Lexical.levelOf_eq`: a level holds the bindings that resolution finds
* `Lexical.Mirrors.cons`: a routine's table joins the chain as its level does
-/

namespace PascalCompiler.Lexical

/-- The kinds of names that declarations introduce. -/
def Known (kind : NameKind) : Prop :=
  kind = .constant ∨ kind = .var ∨ kind = .procedure ∨ kind = .function

/-- Tables that say of every key what the levels say, and levels that hold only
declared names. -/
structure Mirrors (tables : List NameTable) (levels : List Level) : Prop where
  find : ∀ key, Scope.findIn? tables key = find? levels key
  known : ∀ key kind, find? levels key = some kind → Known kind

theorem Mirrors.nil : Mirrors [] [] :=
  ⟨fun _ => rfl, fun _ _ found => by cases found⟩

/-! ### One level -/

/-- Bindings by the keys of their names. -/
def keyed (bindings : List Resolution.Binding) : Level :=
  bindings.map fun binding => (Lowercase.lowerText binding.1, binding.2)

theorem keyed_append (first second : List Resolution.Binding) :
    keyed (first ++ second) = keyed first ++ keyed second :=
  List.map_append

theorem keyed_flatMap {α : Type} (list : List α) (bindings : α → List Resolution.Binding) :
    keyed (list.flatMap bindings) = list.flatMap fun a => keyed (bindings a) :=
  List.map_flatMap

theorem find?_declare (table : NameTable) (name key : String) (kind : NameKind) :
    (table.declare name kind).find? key =
      (List.lookup key [(Lowercase.lowerText name, kind)]).or (table.find? key) := by
  -- the new entry covers the old ones of its key and no others
  rw [NameTable.declare, NameTable.find?_insert, NameTable.key, List.lookup_cons]
  by_cases same : key = Lowercase.lowerText name
  · simp [same]
  · simp [same, beq_eq_false_iff_ne.2 same]

/-- Names declared one after the other: the last one counts, and what none of
them declares is as it was. -/
theorem find?_foldl_declare (bindings : List Resolution.Binding) (table : NameTable)
    (key : String) :
    (bindings.foldl (fun table (name, kind) => table.declare name kind) table).find? key =
      ((keyed bindings).reverse.lookup key).or (table.find? key) := by
  induction bindings generalizing table with
  | nil => rfl
  | cons binding rest ih =>
    obtain ⟨name, kind⟩ := binding
    rw [List.foldl_cons, ih, find?_declare, ← Option.or_assoc, ← List.lookup_append, keyed, keyed,
      List.map_cons, List.reverse_cons]

theorem find?_ofBindings (bindings : List Resolution.Binding) (key : String) :
    (NameTable.ofBindings bindings).find? key = (keyed bindings).reverse.lookup key := by
  rw [NameTable.ofBindings, find?_foldl_declare, NameTable.find?_empty, Option.or_none]

/-- The last entry of a key counts. -/
theorem lookup_reverse_eq_some_iff {level : Level} {key : String} {kind : NameKind} :
    level.reverse.lookup key = some kind ↔
      ∃ before after, level = before ++ (key, kind) :: after ∧ ∀ entry ∈ after, entry.1 ≠ key := by
  rw [List.lookup_eq_some_iff]
  constructor
  · rintro ⟨after, before, reversed, others⟩
    refine ⟨before.reverse, after.reverse, ?_, fun entry mem same => ?_⟩
    · rw [← List.reverse_reverse level, reversed]
      simp
    · exact absurd same.symm (bne_iff_ne.mp (others entry (List.mem_reverse.mp mem)))
  · rintro ⟨before, after, rfl, others⟩
    refine ⟨after.reverse, before.reverse, by simp, fun entry mem => ?_⟩
    exact bne_iff_ne.mpr (others entry (List.mem_reverse.mp mem)).symm

theorem lookup_reverse_eq_none_iff {level : Level} {key : String} :
    level.reverse.lookup key = none ↔ ∀ entry ∈ level, entry.1 ≠ key := by
  rw [List.lookup_eq_none_iff]
  constructor
  · intro others entry mem same
    exact absurd same.symm (bne_iff_ne.mp (others entry (List.mem_reverse.mpr mem)))
  · intro others entry mem
    exact bne_iff_ne.mpr (others entry (List.mem_reverse.mp mem)).symm

/-! ### The bindings of a level -/

theorem entries_eq (kind : NameKind) (list : List (Option Ident)) :
    entries kind list = keyed (list.flatMap (Resolution.ofIdent kind)) := by
  induction list with
  | nil => rfl
  | cons first rest ih =>
    rw [List.flatMap_cons, keyed_append, ← ih, entries, List.filterMap_cons, entries]
    cases first with
    | none => rfl
    | some i =>
      by_cases empty : i.name = "" <;>
        simp [nameOf, Option.filter, empty, Resolution.ofIdent, keyed]

theorem routineEntry_eq (kind : RoutineKind) (name : Option Ident) :
    routineEntry kind name = keyed (Resolution.ofIdent kind.nameKind name) := by
  cases kind <;> simp [routineEntry, entries_eq, RoutineKind.nameKind]

/-- Leaving out what is absent is the same as letting it add nothing. -/
theorem flatMap_reduceOption {α β : Type} {f : α → List β} {g : Option α → List β}
    (absent : g none = []) (present : ∀ a, g (some a) = f a) (list : List (Option α)) :
    list.reduceOption.flatMap f = list.flatMap g := by
  induction list with
  | nil => rfl
  | cons a rest ih =>
    rw [List.flatMap_cons, ← ih]
    cases a with
    | none => rw [absent]; rfl
    | some a => rw [present]; rfl

theorem flatMap_flatten_eq (d : Option Decl) :
    (flatten d).flatMap declEntries = keyed (Resolution.ofDecl d) := by
  rcases d with - | ⟨d⟩ | ⟨position, list⟩ | ⟨d⟩ | ⟨position, list⟩ | ⟨h⟩ | ⟨r⟩
  · rfl
  · simp [flatten, declEntries, entries_eq, Resolution.ofDecl, Resolution.ofVar]
  · -- a part binds what its declarations bind, one after the other
    rw [Resolution.ofDecl, keyed_flatMap, flatten, List.flatMap_map]
    exact flatMap_reduceOption rfl (fun d => (entries_eq .var d.names).symm) list
  · simp [flatten, declEntries, entries_eq, Resolution.ofDecl, Resolution.ofConst]
  · rw [Resolution.ofDecl, keyed_flatMap, flatten, List.flatMap_map]
    refine flatMap_reduceOption rfl (fun d => ?_) list
    simp [declEntries, entries_eq, Resolution.ofConst]
  · simp [flatten, declEntries, routineEntry_eq, Resolution.ofDecl]
  · simp [flatten, declEntries, routineEntry_eq, Resolution.ofDecl]

/-- A level holds what resolution binds at it: the parameters, then the
declarations. -/
theorem levelOf_eq (params : List (Option ParamGroup)) (decls : List (Option Decl)) :
    levelOf params decls = keyed (Resolution.ofParams params ++ Resolution.ofDecls decls) := by
  rw [keyed_append, levelOf, List.flatMap_assoc]
  congr 1
  · rw [Resolution.ofParams, keyed_flatMap]
    exact flatMap_reduceOption rfl (fun group => (entries_eq .var group.names).symm) params
  · rw [Resolution.ofDecls, keyed_flatMap]
    simp only [flatMap_flatten_eq]

/-! ### Declared names -/

theorem known_of_mem_entries {kind : NameKind} (known : Known kind) {list : List (Option Ident)}
    {entry : String × NameKind} (mem : entry ∈ entries kind list) : Known entry.2 := by
  obtain ⟨name, -, rfl⟩ := List.mem_map.mp mem
  exact known

theorem known_of_mem_routineEntry {kind : RoutineKind} {name : Option Ident}
    {entry : String × NameKind} (mem : entry ∈ routineEntry kind name) : Known entry.2 := by
  cases kind with
  | procedure => exact known_of_mem_entries (.inr (.inr (.inl rfl))) mem
  | function => exact known_of_mem_entries (.inr (.inr (.inr rfl))) mem

theorem known_of_mem_declEntries {d : Decl} {entry : String × NameKind}
    (mem : entry ∈ declEntries d) : Known entry.2 := by
  cases d with
  | var d => exact known_of_mem_entries (.inr (.inl rfl)) mem
  | const d => exact known_of_mem_entries (.inl rfl) mem
  | header h => exact known_of_mem_routineEntry mem
  | routine r => exact known_of_mem_routineEntry mem
  | vars | consts => cases mem

/-- Every name of a level was declared as something. -/
theorem known_of_mem_levelOf {params : List (Option ParamGroup)} {decls : List (Option Decl)}
    {entry : String × NameKind} (mem : entry ∈ levelOf params decls) : Known entry.2 := by
  rcases List.mem_append.mp mem with mem | mem
  · obtain ⟨group, -, mem⟩ := List.mem_flatMap.mp mem
    exact known_of_mem_entries (.inr (.inl rfl)) mem
  · obtain ⟨d, -, mem⟩ := List.mem_flatMap.mp mem
    exact known_of_mem_declEntries mem

/-! ### Chains of levels -/

/-- The table of parameters and declarations goes in front of a chain of tables
as their level goes in front of the levels. -/
theorem Mirrors.cons {tables : List NameTable} {levels : List Level}
    (mirrors : Mirrors tables levels) (params : List (Option ParamGroup))
    (decls : List (Option Decl)) :
    Mirrors
      (NameTable.ofBindings (Resolution.ofParams params ++ Resolution.ofDecls decls) :: tables)
      (levelOf params decls :: levels) := by
  refine ⟨fun key => ?_, fun key kind found => ?_⟩
  · have outer := mirrors.find key
    rw [Scope.findIn?, find?] at outer
    rw [Scope.findIn?, find?, List.findSome?_cons, List.findSome?_cons, find?_ofBindings,
      ← levelOf_eq, outer]
  · rw [find?, List.findSome?_cons] at found
    cases here : (levelOf params decls).reverse.lookup key with
    | none =>
      -- the key belongs to one of the levels around
      rw [here] at found
      exact mirrors.known key kind found
    | some own =>
      rw [here] at found
      obtain rfl := Option.some_inj.mp found
      obtain ⟨before, after, level, -⟩ := List.lookup_eq_some_iff.mp here
      have mem : (key, own) ∈ levelOf params decls := by
        rw [← List.mem_reverse, level]
        simp
      exact known_of_mem_levelOf mem

end PascalCompiler.Lexical
