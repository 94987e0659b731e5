import Mathlib.Data.List.Basic
import PascalCompiler.Proofs.Lexical.Levels
import PascalCompiler.Proofs.Text.Order
import PascalCompiler.Scope.Forest

/-!
# Scopes as layered maps

Levels are opened and names are declared at them in any order. Whatever the order was, a name
denotes in a scope what it was last declared as at the nearest level that declares it at all. A
level lists its names in the order of their bytes, each once and in lower case, so how it is
written depends only on what was declared last.

## Main definitions

* `NameTable.Sorted`: the keys of a table ascend
* `Forest.Last`: what the last of some declarations of a key says
* `Forest.History`: levels opened and names declared, in any order
* `Forest.History.Chain`: a level and the levels around it
* `Forest.History.Denotes`: what a key denotes along a chain

## Main results

* `NameTable.eq_of_find?`: a table is determined by what it says of each key
* `Forest.History.tables_of_chain`: the tables of a scope, one for each level of its chain
* `Forest.History.scope_layered`: what a scope says, lists and looks like after any history
-/

namespace PascalCompiler

/-! ### Tables -/

namespace NameTable

/-- The keys of the table ascend. -/
def Sorted (table : NameTable) : Prop :=
  table.entries.Pairwise fun entry later => entry.1 < later.1

theorem mem_insertEntry {entered : String} {kind : NameKind} {entries : List (String × NameKind)}
    {entry : String × NameKind} (mem : entry ∈ insertEntry entered kind entries) :
    entry.1 = entered ∨ entry ∈ entries := by
  induction entries with
  | nil => exact .inl (congrArg Prod.fst (List.mem_singleton.mp mem))
  | cons first rest ih =>
    rw [insertEntry] at mem
    split at mem
    · exact (List.mem_cons.mp mem).imp_left (congrArg Prod.fst)
    · split at mem
      · exact (List.mem_cons.mp mem).imp (congrArg Prod.fst) (List.mem_cons_of_mem _)
      · rcases List.mem_cons.mp mem with rfl | mem
        · exact .inr List.mem_cons_self
        · exact (ih mem).imp_right (List.mem_cons_of_mem _)

theorem pairwise_insertEntry {entries : List (String × NameKind)}
    (sorted : entries.Pairwise fun entry later => entry.1 < later.1) (entered : String)
    (kind : NameKind) :
    (insertEntry entered kind entries).Pairwise fun entry later => entry.1 < later.1 := by
  induction sorted with
  | nil => exact List.pairwise_singleton _ _
  | @cons first rest lower sorted ih =>
    rw [insertEntry]
    split
    · next less =>
      refine .cons (List.forall_mem_cons.mpr ⟨less, fun later mem => ?_⟩) (.cons lower sorted)
      exact String.lt_trans less (lower later mem)
    · next notLess =>
      split
      · next same => exact .cons (fun later mem => same ▸ lower later mem) sorted
      · next other =>
        refine .cons (fun later mem => ?_) ih
        rcases mem_insertEntry mem with same | mem
        · rw [same]
          exact Std.lt_of_le_of_ne (String.not_lt.mp notLess) (Ne.symm other)
        · exact lower later mem

theorem Sorted.declare {table : NameTable} (sorted : table.Sorted) (name : String)
    (kind : NameKind) : (table.declare name kind).Sorted :=
  pairwise_insertEntry sorted (key name) kind

/-- However names were declared, the keys ascend. -/
theorem sorted_ofBindings (bindings : List (String × NameKind)) : (ofBindings bindings).Sorted := by
  have run {table : NameTable} (sorted : table.Sorted) :
      (bindings.foldl (fun table binding => table.declare binding.1 binding.2) table).Sorted := by
    induction bindings generalizing table with
    | nil => exact sorted
    | cons binding rest ih => exact ih (sorted.declare binding.1 binding.2)
  exact run .nil

/-- The entries of a table are what it says of each key. -/
theorem Sorted.mem_entries_iff {table : NameTable} (sorted : table.Sorted) {key : String}
    {kind : NameKind} : (key, kind) ∈ table.entries ↔ table.find? key = some kind := by
  rw [find?, List.lookup_eq_some_iff]
  constructor
  · intro mem
    obtain ⟨before, after, split⟩ := List.append_of_mem mem
    refine ⟨before, after, split, fun entry earlier => bne_iff_ne.mpr fun same => ?_⟩
    rw [Sorted, split, List.pairwise_append] at sorted
    have less := sorted.2.2 entry earlier (key, kind) List.mem_cons_self
    exact String.lt_irrefl _ (same ▸ less)
  · rintro ⟨before, after, split, -⟩
    rw [split]
    exact List.mem_append_right _ List.mem_cons_self

/-- A table is determined by what it says of each key. -/
theorem eq_of_find? {table other : NameTable} (sorted : table.Sorted) (sorted' : other.Sorted)
    (same : ∀ key kind, table.find? key = some kind ↔ other.find? key = some kind) :
    table = other := by
  have distinct {table : NameTable} (sorted : table.Sorted) : table.entries.Nodup := by
    refine List.Pairwise.imp (fun less same => ?_) sorted
    rw [same] at less
    exact String.lt_irrefl _ less
  have perm : table.entries.Perm other.entries := by
    refine (List.perm_ext_iff_of_nodup (distinct sorted) (distinct sorted')).mpr fun entry => ?_
    exact sorted.mem_entries_iff.trans ((same entry.1 entry.2).trans sorted'.mem_entries_iff.symm)
  have entries : table.entries = other.entries :=
    perm.eq_of_pairwise (fun _ _ _ _ less more => absurd more (String.lt_asymm less)) sorted sorted'
  exact congrArg NameTable.mk entries

end NameTable

namespace Forest

/-! ### Declarations -/

/-- The last of the declarations with the key declares the kind. -/
def Last (declarations : List (String × NameKind)) (key : String) (kind : NameKind) : Prop :=
  ∃ before name after, declarations = before ++ (name, kind) :: after ∧
    Lowercase.lowerText name = key ∧ ∀ later ∈ after, Lowercase.lowerText later.1 ≠ key

section Last

variable {declarations : List (String × NameKind)} {key : String} {kind : NameKind}

theorem find?_ofBindings_eq_some_iff :
    (NameTable.ofBindings declarations).find? key = some kind ↔ Last declarations key kind := by
  rw [Lexical.find?_ofBindings, Lexical.lookup_reverse_eq_some_iff, Lexical.keyed]
  constructor
  · rintro ⟨before, after, split, others⟩
    obtain ⟨front, back, rfl, -, mapped⟩ := List.map_eq_append_iff.mp split
    obtain ⟨declaration, rest, rfl, isEntry, rfl⟩ := List.map_eq_cons_iff.mp mapped
    obtain ⟨rfl, rfl⟩ := Prod.mk.inj isEntry
    exact ⟨front, declaration.1, rest, rfl, rfl, fun later mem =>
      others _ (List.mem_map_of_mem mem)⟩
  · rintro ⟨before, name, after, rfl, rfl, others⟩
    refine ⟨_, _, List.map_append, fun entry mem => ?_⟩
    obtain ⟨later, isLater, rfl⟩ := List.mem_map.mp mem
    exact others later isLater

theorem find?_ofBindings_eq_none_iff :
    (NameTable.ofBindings declarations).find? key = none ↔
      ∀ declaration ∈ declarations, Lowercase.lowerText declaration.1 ≠ key := by
  rw [Lexical.find?_ofBindings, Lexical.lookup_reverse_eq_none_iff, Lexical.keyed,
    List.forall_mem_map]

/-- The entries of a table are the last declarations. -/
theorem last_of_mem_entries {entry : String × NameKind}
    (mem : entry ∈ (NameTable.ofBindings declarations).entries) :
    Last declarations entry.1 entry.2 :=
  find?_ofBindings_eq_some_iff.mp
    ((NameTable.sorted_ofBindings declarations).mem_entries_iff.mp mem)

theorem mem_names_ofBindings {name : String} :
    name ∈ (NameTable.ofBindings declarations).names ↔
      ∃ declaration ∈ declarations, Lowercase.lowerText declaration.1 = name := by
  constructor
  · intro mem
    obtain ⟨entry, isEntry, rfl⟩ := List.mem_map.mp mem
    obtain ⟨before, found, after, split, isKey, -⟩ := last_of_mem_entries isEntry
    exact ⟨(found, entry.2), split ▸ List.mem_append_right _ List.mem_cons_self, isKey⟩
  · rintro ⟨declaration, isDeclaration, rfl⟩
    cases found : (NameTable.ofBindings declarations).find?
        (Lowercase.lowerText declaration.1) with
    | none => exact absurd rfl (find?_ofBindings_eq_none_iff.mp found declaration isDeclaration)
    | some kind =>
      have sorted := NameTable.sorted_ofBindings declarations
      exact List.mem_map_of_mem (sorted.mem_entries_iff.mpr found)

/-- Declarations that leave the same kinds make the same table. -/
theorem ofBindings_eq_of_last {others : List (String × NameKind)}
    (same : ∀ key kind, Last declarations key kind ↔ Last others key kind) :
    NameTable.ofBindings declarations = .ofBindings others := by
  refine NameTable.eq_of_find? (NameTable.sorted_ofBindings _) (NameTable.sorted_ofBindings _)
    fun key kind => ?_
  rw [find?_ofBindings_eq_some_iff, find?_ofBindings_eq_some_iff]
  exact same key kind

end Last

/-! ### Histories -/

/-- Levels opened and names declared one after the other. The number counts the levels: a level is
opened inside one opened before or inside none, and a name is declared at one opened before. -/
inductive History : Nat → Type where
  | start : History 0
  | opened {n : Nat} (before : History n) (parent : Option (Fin n)) : History (n + 1)
  | declared {n : Nat} (before : History n) (level : Fin n) (name : String) (kind : NameKind) :
      History n

namespace History

/-- The scopes after a history. -/
def forest {n : Nat} : History n → Forest
  | .start => {}
  | .opened before parent => (before.forest.openLevel (parent.map Fin.val)).1
  | .declared before level name kind => before.forest.declare level name kind

/-- The declarations at a level, in their order. -/
def declarations {n : Nat} (number : Nat) : History n → List (String × NameKind)
  | .start => []
  | .opened before _ => before.declarations number
  | .declared before level name kind =>
    before.declarations number ++ if level.val = number then [(name, kind)] else []

/-- The level in which a level was opened. -/
def parent? {n : Nat} (number : Nat) : History n → Option Nat
  | .start => none
  | @opened n before parent =>
    if number = n then parent.map Fin.val else before.parent? number
  | .declared before .. => before.parent? number

variable {n : Nat} (history : History n)

/-- A level and the levels around it, the nearest first. -/
inductive Chain : Nat → List Nat → Prop where
  | top {level : Nat} (outermost : history.parent? level = none) : Chain level [level]
  | inside {level parent : Nat} {around : List Nat} (within : history.parent? level = some parent)
      (outer : Chain parent around) : Chain level (level :: around)

/-- What the key was last declared as at the first of the levels that declares it at all. A key
that none declares is unknown. -/
inductive Denotes (key : String) : List Nat → NameKind → Prop where
  | unknown : Denotes key [] .unknown
  | here {level : Nat} {around : List Nat} {kind : NameKind}
      (last : Last (history.declarations level) key kind) : Denotes key (level :: around) kind
  | around {level : Nat} {around : List Nat} {kind : NameKind}
      (undeclared : ∀ declaration ∈ history.declarations level,
        Lowercase.lowerText declaration.1 ≠ key)
      (outer : Denotes key around kind) : Denotes key (level :: around) kind

end History

/-! ### Levels -/

section Levels

variable {levels earlier : List Level} {level : Level} {number : Nat}

/-- A change at one level leaves the others as they are. -/
theorem locate?_modify (change : Level → Level) (changed : Nat) :
    (locate? (modify change changed levels) number).map Prod.fst =
      (locate? levels number).map fun found =>
        if number = changed then change found.1 else found.1 := by
  induction levels with
  | nil => rfl
  | cons level earlier ih =>
    rw [modify, locate?]
    by_cases last : changed = earlier.length
    · rw [if_pos last, locate?]
      by_cases here : number = earlier.length
      · simp [here, last]
      · simp [here, last]
    · rw [if_neg last, locate?, length_modify]
      by_cases here : number = earlier.length
      · simp [here, Ne.symm last]
      · simp [here, ih]

theorem locate?_lt (located : locate? levels number = some (level, earlier)) :
    number < levels.length := by
  induction levels with
  | nil => cases located
  | cons first rest ih =>
    rw [locate?] at located
    rw [List.length_cons]
    split at located
    · omega
    · exact Nat.lt_succ_of_lt (ih located)

/-- The tables of a level: its own, then those of the level around it. -/
theorem tables_of_locate? (located : locate? levels number = some (level, earlier))
    (before : ∀ parent ∈ level.parent, parent < number) :
    tables levels number =
      level.names :: (level.parent.map (tables levels)).getD [] := by
  induction levels with
  | nil => cases located
  | cons first rest ih =>
    rw [locate?] at located
    -- the level around was opened before, so it is not the first of the list
    have skips {parent : Nat} (isBefore : parent < number) (bound : number ≤ rest.length) :
        tables (first :: rest) parent = tables rest parent := by
      rw [tables, if_neg (by omega)]
    split at located
    · next here =>
      obtain ⟨rfl, rfl⟩ := Prod.mk.inj (Option.some_inj.mp located)
      rw [tables, if_pos here]
      cases around : first.parent with
      | none => rfl
      | some parent =>
        rw [Option.map_some, Option.getD_some, skips (before parent around) (by omega)]
    · next elsewhere =>
      rw [tables, if_neg elsewhere, ih located]
      cases around : level.parent with
      | none => rfl
      | some parent =>
        have bound := locate?_lt located
        rw [Option.map_some, Option.map_some, Option.getD_some, Option.getD_some,
          skips (before parent around) (by omega)]

end Levels

/-! ### Scopes after a history -/

namespace History

theorem length_levels (history : History n) : history.forest.levels.length = n := by
  induction history with
  | start => rfl
  | opened before parent ih => exact congrArg (· + 1) ih
  | declared before level name kind ih => exact (length_modify _ _ _).trans ih

theorem declarations_eq_nil (history : History n) {number : Nat} (unopened : n ≤ number) :
    history.declarations number = [] := by
  induction history with
  | start => rfl
  | opened before parent ih => exact ih (by omega)
  | declared before level name kind ih =>
    rw [declarations, ih unopened, if_neg (by omega), List.append_nil]

/-- A level is opened inside an earlier one. -/
theorem parent?_lt (history : History n) {number parent : Nat}
    (within : history.parent? number = some parent) : parent < number := by
  induction history with
  | start => cases within
  | @opened n before inside ih =>
    rw [parent?] at within
    split at within
    · next last =>
      obtain ⟨outer, -, rfl⟩ := Option.map_eq_some_iff.mp within
      omega
    · exact ih within
  | declared before level name kind ih => exact ih within

/-- A level has the table of its declarations and was opened where the history says. -/
theorem locate?_forest (history : History n) {number : Nat} (isOpen : number < n) :
    (locate? history.forest.levels number).map Prod.fst =
      some ⟨.ofBindings (history.declarations number), history.parent? number⟩ := by
  induction history with
  | start => omega
  | @opened n before parent ih =>
    have length := before.length_levels
    rw [forest, openLevel, locate?, length, parent?]
    split
    · next last =>
      rw [declarations, before.declarations_eq_nil (by omega)]
      rfl
    · exact ih (by omega)
  | declared before level name kind ih =>
    rw [forest, declare, locate?_modify]
    obtain ⟨found, located, isLevel⟩ := Option.map_eq_some_iff.mp (ih isOpen)
    rw [located, Option.map_some, isLevel, declarations, parent?]
    by_cases here : number = level.val
    · rw [if_pos here, if_pos here.symm, NameTable.ofBindings, NameTable.ofBindings,
        List.foldl_append]
      rfl
    · rw [if_neg here, if_neg (Ne.symm here), List.append_nil]

theorem exists_chain (history : History n) (number : Nat) :
    ∃ levels, history.Chain number levels := by
  induction number using Nat.strongRecOn with
  | _ number ih =>
    cases within : history.parent? number with
    | none => exact ⟨_, .top within⟩
    | some parent =>
      obtain ⟨around, outer⟩ := ih parent (history.parent?_lt within)
      exact ⟨_, .inside within outer⟩

/-- The tables of a level are those of the declarations at the levels of its chain. -/
theorem tables_of_chain {history : History n} {number : Nat} {levels : List Nat}
    (chain : history.Chain number levels) (isOpen : number < n) :
    tables history.forest.levels number =
      levels.map fun level => .ofBindings (history.declarations level) := by
  induction chain with
  | @top number outermost =>
    obtain ⟨⟨_, earlier⟩, located, rfl⟩ := Option.map_eq_some_iff.mp (history.locate?_forest isOpen)
    rw [tables_of_locate? located (by simp [outermost])]
    simp [outermost]
  | @inside number parent around within outer ih =>
    have smaller := history.parent?_lt within
    obtain ⟨⟨_, earlier⟩, located, rfl⟩ := Option.map_eq_some_iff.mp (history.locate?_forest isOpen)
    rw [tables_of_locate? located (by simpa [within] using smaller)]
    simp [within, ih (by omega)]

theorem denotes_iff {history : History n} {key : String} {levels : List Nat} {kind : NameKind} :
    (Scope.findIn? (levels.map fun level => .ofBindings (history.declarations level)) key).getD
        .unknown = kind ↔ history.Denotes key levels kind := by
  induction levels with
  | nil =>
    constructor
    · rintro rfl
      exact .unknown
    · intro denotes
      cases denotes
      rfl
  | cons level around ih =>
    rw [Scope.findIn?, List.map_cons, List.findSome?_cons]
    cases found : (NameTable.ofBindings (history.declarations level)).find? key with
    | none =>
      have undeclared := find?_ofBindings_eq_none_iff.mp found
      refine ih.trans ⟨.around undeclared, fun denotes => ?_⟩
      cases denotes with
      | here last => cases found.symm.trans (find?_ofBindings_eq_some_iff.mpr last)
      | around _ outer => exact outer
    | some declared =>
      constructor
      · rintro rfl
        exact .here (find?_ofBindings_eq_some_iff.mp found)
      · intro denotes
        cases denotes with
        | here last =>
          exact Option.some_inj.mp (found.symm.trans (find?_ofBindings_eq_some_iff.mpr last))
        | around undeclared =>
          cases found.symm.trans (find?_ofBindings_eq_none_iff.mpr undeclared)

/-- The scope of a level, by its chain. -/
theorem scope?_of_chain {history : History n} {number : Nat} {levels : List Nat}
    (chain : history.Chain number levels) (isOpen : number < n) :
    ∃ scope, history.forest.scope? number = some scope ∧
      scope.names = .ofBindings (history.declarations number) ∧
      scope.tables = levels.map fun level => .ofBindings (history.declarations level) := by
  have tables := tables_of_chain chain isOpen
  rw [scope?, tables]
  cases chain with
  | top => exact ⟨_, rfl, rfl, rfl⟩
  | inside => exact ⟨_, rfl, rfl, rfl⟩

/-- After any history, a name denotes in the scope of a level what it was last declared as at the
nearest level that declares it, and nothing if there is none. The names of the level ascend in the
order of their bytes and are those declared there, in lower case. The level is written with what
each was last declared as, so declarations that agree in this are written alike. -/
theorem scope_layered (history : History n) (level : Fin n) :
    ∃ scope levels, history.forest.scope? level = some scope ∧ history.Chain level levels ∧
      (∀ name kind, scope.kindOf name = kind ↔
        history.Denotes (Lowercase.lowerText name) levels kind) ∧
      scope.names.names.Pairwise (fun name later => Bytes.ofString name < Bytes.ofString later) ∧
      (∀ name, name ∈ scope.names.names ↔
        ∃ declaration ∈ history.declarations level, Lowercase.lowerText declaration.1 = name) ∧
      (∃ entries : List (String × NameKind), entries.map Prod.fst = scope.names.names ∧
        (∀ entry ∈ entries, Last (history.declarations level) entry.1 entry.2) ∧
        scope.render = "\x7b" ++ String.intercalate ", "
          (entries.map fun entry => entry.1 ++ ":" ++ entry.2.word) ++ "\x7d") ∧
      ∀ (m : Nat) (other : History m) (level' : Fin m) (scope' : Scope),
        other.forest.scope? level' = some scope' →
        (∀ key kind, Last (history.declarations level) key kind ↔
          Last (other.declarations level') key kind) →
        scope.render = scope'.render := by
  obtain ⟨levels, chain⟩ := history.exists_chain level
  obtain ⟨scope, isScope, names, tables⟩ := scope?_of_chain chain level.isLt
  have sorted := NameTable.sorted_ofBindings (history.declarations level)
  refine ⟨scope, levels, isScope, chain, fun name kind => ?_, ?_, fun name => ?_, ?_, ?_⟩
  · rw [Scope.kindOf, tables]
    exact denotes_iff
  · rw [names, NameTable.names, List.pairwise_map]
    exact List.Pairwise.imp Utf8.ofString_lt sorted
  · rw [names]
    exact mem_names_ofBindings
  · refine ⟨scope.names.entries, rfl, fun entry mem => ?_, rfl⟩
    rw [names] at mem
    exact last_of_mem_entries mem
  · intro m other level' scope' isScope' same
    obtain ⟨levels', chain'⟩ := other.exists_chain level'
    obtain ⟨found, isFound, names', -⟩ := scope?_of_chain chain' level'.isLt
    obtain rfl := Option.some_inj.mp (isScope'.symm.trans isFound)
    rw [Scope.render, Scope.render, names, names', ofBindings_eq_of_last same]

/-- A constant that becomes a variable, after a level is opened inside. -/
def redeclared : History 2 :=
  let outer := opened .start none
  let inner := opened (.declared outer 0 "Max" .constant) (some 0)
  .declared (.declared inner 1 "i" .var) 0 "MAX" .var

/-- A variable from the start. -/
def declaredOnce : History 1 :=
  .declared (.opened .start none) 0 "max" .var

theorem lowerText_eq {name word : String}
    (spelled : name.toList.map Lowercase.lower = word.toList) :
    Lowercase.lowerText name = word := by
  rw [← String.toList_inj, Lowercase.toList_lowerText, spelled]

/-- The later declaration shows inside, and the level is written as if it had been the only one. -/
theorem scope_layered_redeclared :
    (∃ scope levels, redeclared.forest.scope? (1 : Fin 2) = some scope ∧
      redeclared.Chain (1 : Fin 2) levels ∧ scope.kindOf "mAX" = .var) ∧
    ∃ scope scope', redeclared.forest.scope? (0 : Fin 2) = some scope ∧
      declaredOnce.forest.scope? (0 : Fin 1) = some scope' ∧ scope.render = scope'.render := by
  have again : Lowercase.lowerText "MAX" = "max" := lowerText_eq (by decide)
  constructor
  · obtain ⟨scope, levels, isScope, chain, denotes, -⟩ := scope_layered redeclared 1
    refine ⟨scope, levels, isScope, chain, (denotes "mAX" .var).mpr ?_⟩
    rw [lowerText_eq (by decide : _ = "max".toList)]
    cases chain with
    | top outermost => cases outermost
    | inside within outer =>
      cases within
      cases outer with
      | top =>
        have elsewhere : ∀ declaration ∈ redeclared.declarations 1,
            Lowercase.lowerText declaration.1 ≠ "max" := by
          intro declaration mem
          rw [List.mem_singleton.mp mem, lowerText_eq (by decide : _ = "i".toList)]
          decide
        exact .around elsewhere
          (.here ⟨[("Max", .constant)], "MAX", [], rfl, again, List.forall_mem_nil _⟩)
      | inside further => cases further
  · obtain ⟨scope, -, isScope, -, -, -, -, -, alike⟩ := scope_layered redeclared 0
    obtain ⟨scope', -, isScope', -⟩ := scope_layered declaredOnce 0
    refine ⟨scope, scope', isScope, isScope', alike 1 declaredOnce 0 scope' isScope' ?_⟩
    intro key kind
    have twice : Lexical.keyed (redeclared.declarations (0 : Fin 2)) =
        [(Lowercase.lowerText "Max", .constant), (Lowercase.lowerText "MAX", .var)] := rfl
    have once : Lexical.keyed (declaredOnce.declarations (0 : Fin 1)) =
        [(Lowercase.lowerText "max", .var)] := rfl
    rw [← find?_ofBindings_eq_some_iff, ← find?_ofBindings_eq_some_iff, Lexical.find?_ofBindings,
      Lexical.find?_ofBindings, twice, once, again, lowerText_eq (by decide : _ = "max".toList),
      lowerText_eq (by decide : _ = "max".toList)]
    by_cases isMax : key = "max"
    · simp [isMax]
    · simp [List.lookup_cons, beq_eq_false_iff_ne.mpr isMax]

end History

end Forest

end PascalCompiler
