import PascalCompiler.Script.Name
import PascalCompiler.Proofs.Script.Scanning

/-!
# Identifiers as names in scripts

The script name of a Pascal identifier is a word that scripts do not reserve.
Reserved identifiers are renamed with a dollar sign, which no Pascal identifier
has, so no two identifiers get the same name and none becomes `$e`.

## Main definitions

* `IsPascalIdentifier`: what a Pascal identifier is made of

## Main results

* `Script.isName_identifier`: script names are names
* `Script.identifier_injective`: different identifiers have different script names
-/

namespace PascalCompiler

/-- A letter or underscore, followed by letters, digits and underscores. -/
def IsPascalIdentifier (alphabet : Ecma.Alphabet) (name : String) : Prop :=
  ∃ c cs, name.toList = c :: cs ∧ (alphabet.isLetter c ∨ c = '_') ∧
    ∀ c ∈ cs, alphabet.isLetter c ∨ c.isDigit ∨ c = '_'

namespace Script

open Ecma

variable {alphabet : Alphabet} {name : String}

/-- No Pascal identifier has a dollar sign. -/
theorem dollar_not_mem (isIdentifier : IsPascalIdentifier alphabet name) : '$' ∉ name.toList := by
  obtain ⟨c, cs, same, first, others⟩ := isIdentifier
  rw [same]
  intro mem
  rcases List.mem_cons.mp mem with rfl | mem
  · rcases first with letter | wrong
    · cases letter
    · exact absurd wrong (by decide)
  · rcases others _ mem with letter | digit | wrong
    · cases letter
    · cases digit
    · exact absurd wrong (by decide)

theorem isWord_of_isPascalIdentifier (isIdentifier : IsPascalIdentifier alphabet name) :
    ∃ c cs, name.toList = c :: cs ∧ alphabet.begins c ∧ ∀ c ∈ cs, alphabet.continues c := by
  obtain ⟨c, cs, same, first, others⟩ := isIdentifier
  refine ⟨c, cs, same, ?_, fun d mem => ?_⟩
  · rcases first with letter | rfl
    · simp [Alphabet.begins, letter]
    · simp [Alphabet.begins]
  · rcases others d mem with letter | digit | rfl
    · simp [Alphabet.continues, Alphabet.begins, letter]
    · simp [Alphabet.continues, digit]
    · simp [Alphabet.continues, Alphabet.begins]

theorem identifier_not_mem_reserved (name : String) : identifier name ∉ reserved := by
  rw [identifier]
  split
  · -- no reserved word has a dollar sign
    have none : ∀ word ∈ reserved, '$' ∉ word.toList := by decide +kernel
    intro mem
    exact none _ mem (by simp)
  · next free => simpa using free

/-- The script name of an identifier is a name in scripts. -/
theorem isName_identifier (isIdentifier : IsPascalIdentifier alphabet name) :
    IsName alphabet (identifier name) where
  word := by
    obtain ⟨c, cs, same, begins, continues⟩ := isWord_of_isPascalIdentifier isIdentifier
    rw [identifier]
    split
    · refine ⟨c, cs ++ ['$'], by simp [same], begins, fun d mem => ?_⟩
      rcases List.mem_append.mp mem with before | last
      · exact continues d before
      · obtain rfl := List.mem_singleton.mp last
        rfl
    · exact ⟨c, cs, same, begins, continues⟩
  free := by
    have within : ∀ word ∈ keywords, word ∈ reserved := by decide +kernel
    exact fun isKeyword => identifier_not_mem_reserved name (within _ isKeyword)

theorem identifier_ne_exception (isIdentifier : IsPascalIdentifier alphabet name) :
    identifier name ≠ "$e" := by
  intro same
  -- the first character stays as it is, and it is no dollar sign
  have noDollar := dollar_not_mem isIdentifier
  obtain ⟨c, cs, isWord, -⟩ := isIdentifier
  have first : (identifier name).toList.head? = some c := by
    rw [identifier]
    split
    · simp [isWord]
    · rw [isWord, List.head?_cons]
  rw [same] at first
  obtain rfl : '$' = c := Option.some_inj.mp first
  rw [isWord] at noDollar
  exact noDollar List.mem_cons_self

/-- Names that become the same are the same, or one of them is the other one renamed. -/
theorem identifier_eq_cases {first second : String} (same : identifier first = identifier second) :
    first = second ∨ first ++ "$" = second ∨ first = second ++ "$" := by
  rw [identifier, identifier] at same
  split at same <;> split at same
  · have texts := congrArg String.toList same
    rw [String.toList_append, String.toList_append] at texts
    exact .inl (String.toList_inj.mp (List.append_cancel_right texts))
  · exact .inr (.inl same)
  · exact .inr (.inr same)
  · exact .inl same

/-- No two names without dollar signs become the same. -/
theorem identifier_injective_of_not_mem {first second : String} (noDollar : '$' ∉ first.toList)
    (noDollar' : '$' ∉ second.toList) (same : identifier first = identifier second) :
    first = second := by
  -- if only one of them is renamed, the other one has a dollar sign
  rcases identifier_eq_cases same with same | rfl | rfl
  · exact same
  · exact absurd (by simp) noDollar'
  · exact absurd (by simp) noDollar

/-- No two identifiers become the same name. -/
theorem identifier_injective {first second : String}
    (isFirst : IsPascalIdentifier alphabet first) (isSecond : IsPascalIdentifier alphabet second)
    (same : identifier first = identifier second) : first = second :=
  identifier_injective_of_not_mem (dollar_not_mem isFirst) (dollar_not_mem isSecond) same

end Script

end PascalCompiler
