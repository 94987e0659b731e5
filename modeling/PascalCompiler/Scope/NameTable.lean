import PascalCompiler.Scope.NameKind
import PascalCompiler.Text.Lowercase

/-!
# The names of one level

A name table maps the names declared at one lexical level to what they denote.
Case does not matter: a name is entered and looked up by its key, the name in
lower case. Entries are kept in ascending order of keys, so a table is
determined by the map it stands for.

## Main definitions

* `NameTable.key`: the key of a name
* `NameTable.insert`, `NameTable.find?`: entering and looking up a key
* `NameTable.declare`, `NameTable.ofBindings`: entering names
* `NameTable.render`: a table on one line

## Main results

* `NameTable.find?_insert`: what a table says after a key is entered
-/

namespace PascalCompiler

/-- The names of one level with what they denote, in ascending order of keys. -/
structure NameTable where
  /-- Keys and kinds, in ascending order of keys. -/
  entries : List (String × NameKind) := []

namespace NameTable

/-- The table of a level that declares nothing. -/
def empty : NameTable := {}

/-- Names that differ only in case have the same key. -/
def key (name : String) : String :=
  Lowercase.lowerText name

/-- Enters a key in ascending order, in place of an entry with the same key. -/
def insertEntry (key : String) (kind : NameKind) :
    List (String × NameKind) → List (String × NameKind)
  | [] => [(key, kind)]
  | (k, v) :: rest =>
    if key < k then (key, kind) :: (k, v) :: rest
    else if key = k then (key, kind) :: rest
    else (k, v) :: insertEntry key kind rest

/-- Enters a key, in place of an entry with the same key. -/
def insert (table : NameTable) (key : String) (kind : NameKind) : NameTable :=
  ⟨insertEntry key kind table.entries⟩

/-- What the table says of a key. -/
def find? (table : NameTable) (key : String) : Option NameKind :=
  table.entries.lookup key

theorem find?_empty (key : String) : empty.find? key = none := rfl

private theorem lookup_entry (sought key : String) (kind : NameKind)
    (rest : List (String × NameKind)) :
    ((key, kind) :: rest).lookup sought =
      if sought = key then some kind else rest.lookup sought := by
  by_cases h : sought = key
  · simp [h]
  · simp [List.lookup_cons, h, beq_eq_false_iff_ne.2 h]

theorem lookup_insertEntry (entered sought : String) (kind : NameKind)
    (entries : List (String × NameKind)) :
    (insertEntry entered kind entries).lookup sought =
      if sought = entered then some kind else entries.lookup sought := by
  induction entries with
  | nil => exact lookup_entry sought entered kind []
  | cons entry rest ih =>
    obtain ⟨k, v⟩ := entry
    rw [insertEntry]
    split
    · exact lookup_entry sought entered kind _
    · split
      · next same => rw [lookup_entry, lookup_entry, same]; split <;> rfl
      · next other =>
        rw [lookup_entry, lookup_entry, ih]
        by_cases h : sought = k
        · rw [if_pos h, if_neg fun e => other (e.symm.trans h), if_pos h]
        · rw [if_neg h, if_neg h]

/-- An entered key is found with what was entered; all others are as before. -/
theorem find?_insert (table : NameTable) (entered sought : String) (kind : NameKind) :
    (table.insert entered kind).find? sought =
      if sought = entered then some kind else table.find? sought :=
  lookup_insertEntry entered sought kind table.entries

/-- Declares a name. A later declaration of the same name replaces an earlier one. -/
def declare (table : NameTable) (name : String) (kind : NameKind) : NameTable :=
  table.insert (key name) kind

/-- The table of a list of declarations, the earliest first. -/
def ofBindings (bindings : List (String × NameKind)) : NameTable :=
  bindings.foldl (fun table (name, kind) => table.declare name kind) empty

/-- The keys in ascending order. -/
def names (table : NameTable) : List String :=
  table.entries.map Prod.fst

/-- The entries on one line, such as `{a:variable, f:function}`. -/
def render (table : NameTable) : String :=
  "\x7b" ++
    String.intercalate ", " (table.entries.map fun (k, kind) => k ++ ":" ++ kind.word) ++ "\x7d"

end NameTable

end PascalCompiler
