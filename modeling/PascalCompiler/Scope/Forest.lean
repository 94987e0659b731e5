import PascalCompiler.Scope.Basic

/-!
# Growing scopes

Scopes under construction: levels are opened one after the other, each at top
level or inside one opened before, and names are declared at any of them at any
time. A level is named by its number, counted from zero in order of opening. A
later declaration at a level shows in every scope inside it.

## Main definitions

* `Forest.openLevel`, `Forest.declare`: opening a level and declaring a name at one
* `Forest.scope?`: the scope of a level, with all that was declared so far
-/

namespace PascalCompiler

/-- A level: its names, and the number of the level it was opened in. -/
structure Level where
  /-- The names declared at the level. -/
  names : NameTable := .empty
  /-- The number of the level around it. -/
  parent : Option Nat := none

/-- The levels opened so far, the latest first. -/
structure Forest where
  /-- The levels, the latest first; each is inside an earlier one or at top level. -/
  levels : List Level := []

namespace Forest

/-- Opens a level, which gets the next number. -/
def openLevel (forest : Forest) (parent : Option Nat) : Forest × Nat :=
  (⟨⟨.empty, parent⟩ :: forest.levels⟩, forest.levels.length)

/-- The level with a number among the levels opened so far, and the levels
opened before it. -/
def locate? : List Level → Nat → Option (Level × List Level)
  | [], _ => none
  | level :: earlier, number =>
    if number = earlier.length then some (level, earlier) else locate? earlier number

/-- Changes the level with a number. -/
def modify (change : Level → Level) (number : Nat) : List Level → List Level
  | [] => []
  | level :: earlier =>
    if number = earlier.length then change level :: earlier
    else level :: modify change number earlier

theorem length_modify (change : Level → Level) (number : Nat) (levels : List Level) :
    (modify change number levels).length = levels.length := by
  induction levels with
  | nil => rfl
  | cons level earlier ih =>
    rw [modify]
    split
    · rfl
    · rw [List.length_cons, ih, List.length_cons]

theorem modify_modify (first second : Level → Level) (number : Nat) (levels : List Level) :
    modify second number (modify first number levels) =
      modify (second ∘ first) number levels := by
  induction levels with
  | nil => rfl
  | cons level earlier ih =>
    by_cases here : number = earlier.length
    · simp only [modify, if_pos here, Function.comp_apply]
    · simp only [modify, if_neg here, length_modify, ih]

/-- The levels opened later are not changed. -/
theorem modify_append (change : Level → Level) {number : Nat} (later : List Level)
    {levels : List Level} (isOpen : number < levels.length) :
    modify change number (later ++ levels) = later ++ modify change number levels := by
  induction later with
  | nil => rfl
  | cons level later ih =>
    have elsewhere : number ≠ (later ++ levels).length := by
      rw [List.length_append]
      omega
    rw [List.cons_append, modify, if_neg elsewhere, ih, List.cons_append]

/-- Declares a name at a level. -/
def declare (forest : Forest) (number : Nat) (name : String) (kind : NameKind) : Forest :=
  ⟨modify (fun level => { level with names := level.names.declare name kind }) number forest.levels⟩

/-- The tables of the level with a number and of the levels around it, the
nearest first. -/
def tables : List Level → Nat → List NameTable
  | [], _ => []
  | level :: earlier, number =>
    if number = earlier.length then
      level.names ::
        match level.parent with
        | some parent => tables earlier parent
        | none => []
    else tables earlier number

/-- Levels that are opened later do not matter for the tables of a level. -/
theorem tables_append {number : Nat} (later : List Level) {levels : List Level}
    (isOpen : number < levels.length) : tables (later ++ levels) number = tables levels number := by
  induction later with
  | nil => rfl
  | cons level later ih =>
    have elsewhere : number ≠ (later ++ levels).length := by
      rw [List.length_append]
      omega
    rw [List.cons_append, tables, if_neg elsewhere, ih]

/-- The scope of a level. -/
def scope? (forest : Forest) (number : Nat) : Option Scope :=
  match tables forest.levels number with
  | [] => none
  | names :: outer => some ⟨names, outer⟩

/-- The number of the level around a level. -/
def parent? (forest : Forest) (number : Nat) : Option Nat :=
  (locate? forest.levels number).bind (·.1.parent)

end Forest

end PascalCompiler
