import Mathlib.Data.List.ReduceOption
import PascalCompiler.Proofs.Document.Soundness
import PascalCompiler.Proofs.Generation.Outcome
import PascalCompiler.Proofs.Script.Scanning

/-!
# Parameter lists

The parameters of a routine are declared in groups, and the parameter list of its
function is written group by group. Nothing keeps a group of a document from being
empty. Such a group adds no name but still its comma, so that the list is that of
all names in a row only if there is no empty group or no second group.

## Main definitions

* `Routine.paramNames`: the script names of the parameters, by group

## Main results

* `Script.commas_groups_eq_iff`: when groups of names are written like the names in a row
* `Generation.paramGroups_eq_ok`: the names that are generated for a parameter list
* `Generation.params_in_a_row_iff`: when the parameters of a decoded routine are written in a row
-/

namespace PascalCompiler

/-! ### Names in groups -/

namespace Script

/-- There is a comma for every name but one. -/
theorem length_commas {names : List String} (nonempty : names ≠ []) :
    (commas names).length + 1 = (names.flatMap String.toList).length + names.length := by
  induction names with
  | nil => exact absurd rfl nonempty
  | cons name names ih =>
    by_cases last : names = []
    · subst last
      simp [commas, String.length_toList]
    · have behind := ih last
      rw [← List.singleton_append, commas_append (List.cons_ne_nil _ _) last]
      have alone : commas [name] = name := String.intercalate_singleton
      have comma : ",".length = 1 := rfl
      rw [alone, String.length_append, String.length_append, comma, List.singleton_append,
        List.flatMap_cons, List.length_append, String.length_toList, List.length_cons]
      omega

/-- The texts of groups fall short of the names and their commas by one comma for
each group that has a name. -/
theorem length_texts_of_groups (groups : List (List String)) :
    ((groups.map commas).flatMap String.toList).length + groups.length =
      (groups.flatten.flatMap String.toList).length + groups.flatten.length + groups.count [] := by
  induction groups with
  | nil => rfl
  | cons group groups ih =>
    rw [List.flatten_cons, List.flatMap_append, List.length_append, List.length_append,
      List.map_cons, List.flatMap_cons, List.length_append, String.length_toList, List.length_cons]
    by_cases empty : group = []
    · subst empty
      have nothing : (commas []).length = 0 := rfl
      rw [List.count_cons_self, nothing, List.flatMap_nil, List.length_nil, List.length_nil]
      omega
    · have here := length_commas empty
      rw [List.count_cons_of_ne empty]
      omega

/-- Groups of names are written like the names in a row exactly if none of them is
empty or there is only one. -/
theorem commas_groups_eq_iff (groups : List (List String)) :
    commas (groups.map commas) = commas groups.flatten ↔ groups.length = 1 ∨ [] ∉ groups := by
  constructor
  · intro same
    by_contra neither
    obtain ⟨several, empty⟩ := not_or.mp neither
    rw [not_not] at empty
    have some : groups ≠ [] := List.ne_nil_of_mem empty
    have some' : groups.map commas ≠ [] := mt List.map_eq_nil_iff.mp some
    have length := length_commas some'
    have total := length_texts_of_groups groups
    have gaps := List.count_pos_iff.mpr empty
    rw [same, List.length_map] at length
    by_cases names : groups.flatten = []
    · -- without any name there are commas between the groups only
      have none : (commas groups.flatten).length = 0 := by
        rw [names]
        rfl
      have all : groups.count [] ≤ groups.length := List.count_le_length
      rw [names, List.flatMap_nil, List.length_nil, List.length_nil] at total
      have present := List.length_pos_iff.mpr some
      omega
    · have flat := length_commas names
      omega
  · rintro (one | nonempty)
    · obtain ⟨group, rfl⟩ := List.length_eq_one_iff.mp one
      rw [List.flatten_singleton]
      exact String.intercalate_singleton
    · exact commas_flatten nonempty

end Script

/-! ### The names of a routine's parameters -/

/-- The script names of the parameters that are there, by group. -/
def Routine.paramNames (routine : Routine) : List (List String) :=
  routine.params.reduceOption.map fun group =>
    group.names.reduceOption.map fun ident => Script.identifier ident.name

namespace Generation

/-- Identifiers that are there and named are all written. -/
theorem namesOf_eq_ok (context : Context) {idents : List (Option Ident)} (full : none ∉ idents)
    (named : ∀ ident ∈ idents.reduceOption, ident.name ≠ "") :
    answer context (namesOf idents) =
      .ok (idents.reduceOption.map fun ident => Script.identifier ident.name) := by
  induction idents with
  | nil => rfl
  | cons ident idents ih =>
    cases ident with
    | none => exact absurd List.mem_cons_self full
    | some ident =>
      rw [List.reduceOption_cons_of_some] at named ⊢
      obtain ⟨here, others⟩ := List.forall_mem_cons.mp named
      have rest := ih (fun mem => full (List.mem_cons_of_mem _ mem)) others
      rw [namesOf, nameOf, if_neg here]
      simp only [answer_bind, answer_pure, rest]
      rfl

/-- Groups that are there, of identifiers that are there and named, are all written,
the empty ones too. -/
theorem paramGroups_eq_ok (context : Context) {groups : List (Option ParamGroup)}
    (full : none ∉ groups) (each : ∀ group ∈ groups.reduceOption, none ∉ group.names)
    (named : ∀ group ∈ groups.reduceOption, ∀ ident ∈ group.names.reduceOption, ident.name ≠ "") :
    answer context (paramGroups groups) = .ok (groups.reduceOption.map fun group =>
      group.names.reduceOption.map fun ident => Script.identifier ident.name) := by
  induction groups with
  | nil => rfl
  | cons group groups ih =>
    cases group with
    | none => exact absurd List.mem_cons_self full
    | some group =>
      rw [List.reduceOption_cons_of_some] at each named ⊢
      obtain ⟨isFull, areFull⟩ := List.forall_mem_cons.mp each
      obtain ⟨isNamed, areNamed⟩ := List.forall_mem_cons.mp named
      have rest := ih (fun mem => full (List.mem_cons_of_mem _ mem)) areFull areNamed
      rw [paramGroups, paramGroup]
      simp only [answer_bind, answer_visit, answer_pure, namesOf_eq_ok _ isFull isNamed, rest]
      rfl

end Generation

/-! ### Routines of documents -/

section Decoded

variable {root : Node} {file : String}

/-- What a well-formed tree holds is there. -/
theorem Node.Holds.none_not_mem {α : Type} {node : α → Node} {values : List (Option α)}
    (wellFormed : root.WellFormed file) (holds : ∀ value ∈ values, root.Holds node value) :
    none ∉ values := by
  intro mem
  cases (holds none mem).isSome file wellFormed

variable {routine : Routine}

/-- The groups of parameters in a well-formed tree are there. -/
theorem Routine.none_not_mem_params (wellFormed : root.WellFormed file)
    (within : root.Within (.decl (.routine routine))) : none ∉ routine.params := by
  have holds : ∀ group ∈ routine.params, root.Holds .param group :=
    within.holds_of_mem (.tail _ (.head _))
  exact Node.Holds.none_not_mem wellFormed holds

/-- The parameters in a well-formed tree are there. -/
theorem Routine.none_not_mem_names (wellFormed : root.WellFormed file)
    (within : root.Within (.decl (.routine routine))) :
    ∀ group ∈ routine.params.reduceOption, none ∉ group.names := by
  intro group mem
  have holds : root.Holds .param (some group) :=
    within.holds_of_mem (.tail _ (.head _)) _ (List.reduceOption_mem_iff.mp mem)
  have isGroup := holds.within group rfl
  exact Node.Holds.none_not_mem wellFormed (isGroup.holds_of_mem (.head _))

theorem Routine.length_paramNames (full : none ∉ routine.params) :
    routine.paramNames.length = routine.params.length := by
  rw [paramNames, List.length_map, List.reduceOption_length_eq_iff]
  intro group mem
  cases group with
  | none => exact absurd mem full
  | some group => rfl

/-- A group has no script names only if it is empty. -/
theorem Routine.nil_not_mem_paramNames
    (full : ∀ group ∈ routine.params.reduceOption, none ∉ group.names) :
    [] ∉ routine.paramNames ↔ ∀ group ∈ routine.params.reduceOption, group.names ≠ [] := by
  rw [paramNames, List.mem_map, not_exists]
  refine forall_congr' fun group => ?_
  rw [not_and]
  refine forall_congr' fun mem => not_congr ?_
  rw [List.map_eq_nil_iff]
  constructor
  · intro nothing
    refine List.eq_nil_iff_forall_not_mem.mpr fun ident isName => ?_
    cases ident with
    | none => exact full group mem isName
    | some ident =>
      have present := List.reduceOption_mem_iff.mpr isName
      rw [nothing] at present
      exact List.not_mem_nil present
  · intro empty
    rw [empty, List.reduceOption_nil]

end Decoded

/-- The parameters of a decoded routine are all written, if they have names. They are
written in a row, with a comma between each two, exactly if no group is empty or
there is only one group. -/
theorem Generation.params_in_a_row_iff {name : String} {source : Bytes} {file : File}
    {routine : Routine} (read : Document.decode name source = .ok file)
    (within : file.node.Within (.decl (.routine routine)))
    (named : ∀ group ∈ routine.params.reduceOption, ∀ ident ∈ group.names.reduceOption,
      ident.name ≠ "") :
    (∀ context, answer context (paramGroups routine.params) = .ok routine.paramNames) ∧
      ∀ title body, (Script.Stmt.function title routine.paramNames body).print =
        "function " ++ title ++ "(" ++ Script.commas routine.paramNames.flatten ++ ")" ++
          body.print ↔
        routine.params.length = 1 ∨ ∀ group ∈ routine.params.reduceOption, group.names ≠ [] := by
  have wellFormed := Document.wellFormed_of_decode read
  have full := Routine.none_not_mem_params wellFormed within
  have each := Routine.none_not_mem_names wellFormed within
  refine ⟨fun context => paramGroups_eq_ok context full each named, fun title body => ?_⟩
  rw [← Routine.length_paramNames full, ← Routine.nil_not_mem_paramNames each,
    ← Script.commas_groups_eq_iff, Script.Stmt.print]
  simp only [String.append_left_inj, String.append_right_inj]

/-! ### A procedure with parameters -/

section Sample

/-- The routines that are declared at the level of a file. -/
def File.routines (file : File) : List Routine :=
  file.decls.reduceOption.filterMap fun
    | .routine routine => some routine
    | _ => none

theorem File.within_of_mem_routines {file : File} {routine : Routine}
    (mem : routine ∈ file.routines) : file.node.Within (.decl (.routine routine)) := by
  obtain ⟨d, isDecl, same⟩ := List.mem_filterMap.mp mem
  have within := (file.holds_decls _ (List.reduceOption_mem_iff.mp isDecl)).within d rfl
  cases d with
  | routine value =>
    obtain rfl := Option.some_inj.mp same
    exact within
  | _ => cases same

/-- A program with a procedure `P` that has the given groups of parameters. -/
def procedureDocument (groups : String) : Bytes :=
  Bytes.ofString ("\x7b\"type\":\"program\",\"body\":\x7b\"type\":\"block\",\"declarations\":[" ++
    "\x7b\"type\":\"procedure_declaration\",\"identifier\":" ++
    "\x7b\"type\":\"identifier\",\"value\":\"P\"\x7d,\"params\":[" ++ groups ++ "]," ++
    "\"block\":\x7b\"type\":\"block\",\"statements\":" ++
    "\x7b\"type\":\"compound_statement\",\"list\":[]\x7d\x7d\x7d],\"statements\":" ++
    "\x7b\"type\":\"compound_statement\",\"list\":[]\x7d\x7d\x7d")

/-- A group of parameters with the given identifiers. -/
def groupText (identifiers : String) : String :=
  "\x7b\"type\":\"value_parameter\",\"identifiers\":[" ++ identifiers ++ "]\x7d"

/-- An identifier of the given name. -/
def identifierText (name : String) : String :=
  "\x7b\"type\":\"identifier\",\"value\":\"" ++ name ++ "\"\x7d"

end Sample

/-- The parameters `a, b` and `c`, in two groups. -/
theorem Generation.params_in_a_row_two_groups :
    ∃ file routine, Document.decode "x.json" (procedureDocument
        (groupText (identifierText "a" ++ "," ++ identifierText "b") ++ "," ++
          groupText (identifierText "c"))) = .ok file ∧
      file.node.Within (.decl (.routine routine)) ∧
      (∀ group ∈ routine.params.reduceOption, ∀ ident ∈ group.names.reduceOption,
        ident.name ≠ "") ∧
      (∀ context, answer context (paramGroups routine.params) = .ok [["a", "b"], ["c"]]) ∧
      (Script.Stmt.function "P" [["a", "b"], ["c"]] (.block true [])).print =
        "function P(a,b,c)\x7b\x7d" := by
  have sample : ∃ file ∈ (Document.decode "x.json" (procedureDocument
        (groupText (identifierText "a" ++ "," ++ identifierText "b") ++ "," ++
          groupText (identifierText "c")))).toOption,
      ∃ routine ∈ file.routines,
        (∀ group ∈ routine.params.reduceOption, ∀ ident ∈ group.names.reduceOption,
          ident.name ≠ "") ∧
        (∀ group ∈ routine.params.reduceOption, group.names.length ≠ 0) ∧
        routine.paramNames = [["a", "b"], ["c"]] := by
    decide +kernel
  obtain ⟨file, mem, routine, isRoutine, named, nonempty, names⟩ := sample
  have read := eq_ok_of_mem_toOption mem
  have within := File.within_of_mem_routines isRoutine
  obtain ⟨written, inARow⟩ := params_in_a_row_iff read within named
  rw [names] at written inARow
  refine ⟨file, routine, read, within, named, written, ?_⟩
  refine (inARow "P" (.block true [])).mpr (.inr fun group isGroup empty => ?_)
  refine nonempty group isGroup ?_
  rw [empty, List.length_nil]

/-- A comma stands in front of the parameter `a` if there is an empty group before it. -/
theorem Generation.params_not_in_a_row :
    ∃ file routine, Document.decode "x.json" (procedureDocument
        (groupText "" ++ "," ++ groupText (identifierText "a"))) = .ok file ∧
      file.node.Within (.decl (.routine routine)) ∧
      (∀ group ∈ routine.params.reduceOption, ∀ ident ∈ group.names.reduceOption,
        ident.name ≠ "") ∧
      routine.paramNames.flatten = ["a"] ∧
      file.compile = .ok "function P(,a)\x7b\x7d" := by
  have sample : ∃ file ∈ (Document.decode "x.json" (procedureDocument
        (groupText "" ++ "," ++ groupText (identifierText "a")))).toOption,
      ∃ routine ∈ file.routines,
        (∀ group ∈ routine.params.reduceOption, ∀ ident ∈ group.names.reduceOption,
          ident.name ≠ "") ∧
        routine.paramNames.flatten = ["a"] ∧
        file.compile.toOption = some "function P(,a)\x7b\x7d" := by
    decide +kernel
  obtain ⟨file, mem, routine, isRoutine, named, names, compiled⟩ := sample
  exact ⟨file, routine, eq_ok_of_mem_toOption mem, File.within_of_mem_routines isRoutine, named,
    names, eq_ok_of_mem_toOption compiled⟩

end PascalCompiler
