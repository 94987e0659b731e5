import PascalCompiler.Proofs.Ecma.Lexis
import PascalCompiler.Proofs.Text.Reading
import PascalCompiler.Proofs.Text.Utf16

/-!
# The values of string literals

A string literal stands for a sequence of 16-bit code units, its string value. The rules
go along with the grammar of the characters between the quotes: a character stands for its
code units, an escape sequence for the units that it names, and a line that is continued
for nothing.

## Main definitions

* `Ecma.Value`: the string value of the characters between the quotes of a literal
* `Ecma.Denotes`: the string value of a literal in double quotes

## Main results

* `Ecma.Value.characters`: what has a value may stand between quotes
* `Ecma.Denotes.unique`: a literal has one value
-/

namespace PascalCompiler.Ecma

open Numeral (hexValue)
open Utf16 (Encodes)

/-- The characters that stand for one code unit behind a backslash, with the unit. -/
def singleEscapes : List (Char × Nat) :=
  [('b', 0x08), ('t', 0x09), ('n', 0x0A), ('v', 0x0B), ('f', 0x0C), ('r', 0x0D), ('"', 0x22),
    ('\'', 0x27), ('\\', 0x5C)]

/-- The string value of the characters between the quotes of a literal. -/
inductive Value (quote : Char) : List Char → List Nat → Prop where
  | nil : Value quote [] []
  | plain {c : Char} {cs : List Char} {units others : List Nat} (noQuote : c ≠ quote)
      (noBackslash : c ≠ '\\') (noLineEnd : isLineEnd c = false) (encodes : Encodes c.toNat units)
      (rest : Value quote cs others) : Value quote (c :: cs) (units ++ others)
  | single {c : Char} {cs : List Char} {unit : Nat} {others : List Nat}
      (isSingle : singleEscapes.lookup c = some unit) (rest : Value quote cs others) :
      Value quote ('\\' :: c :: cs) (unit :: others)
  | itself {c : Char} {cs : List Char} {units others : List Nat}
      (noSingle : singleEscapes.lookup c = none) (noDigit : c.isDigit = false)
      (noCode : c ≠ 'x' ∧ c ≠ 'u') (noLineEnd : isLineEnd c = false)
      (encodes : Encodes c.toNat units) (rest : Value quote cs others) :
      Value quote ('\\' :: c :: cs) (units ++ others)
  | null {cs : List Char} {others : List Nat} (noDigit : ∀ d ∈ cs.head?, d.isDigit = false)
      (rest : Value quote cs others) : Value quote ('\\' :: '0' :: cs) (0 :: others)
  | byte {a b : Char} {cs : List Char} {others : List Nat} (isHex : isHexDigit a ∧ isHexDigit b)
      (rest : Value quote cs others) :
      Value quote ('\\' :: 'x' :: a :: b :: cs) (hexValue [a, b] :: others)
  | unit {a b c d : Char} {cs : List Char} {others : List Nat}
      (isHex : ∀ digit ∈ [a, b, c, d], isHexDigit digit) (rest : Value quote cs others) :
      Value quote ('\\' :: 'u' :: a :: b :: c :: d :: cs) (hexValue [a, b, c, d] :: others)
  | continued {c : Char} {cs : List Char} {others : List Nat} (isLineEnd : isLineEnd c)
      (rest : Value quote cs others) : Value quote ('\\' :: c :: cs) others
  | continuedPair {cs : List Char} {others : List Nat} (rest : Value quote cs others) :
      Value quote ('\\' :: '\r' :: '\n' :: cs) others

variable {quote : Char} {cs : List Char} {units others : List Nat}

/-- The characters that stand for a code unit are neither digits nor line ends, and they
begin no longer escape. -/
theorem of_isSingle {c : Char} {unit : Nat} (isSingle : singleEscapes.lookup c = some unit) :
    c.isDigit = false ∧ (c ≠ 'x' ∧ c ≠ 'u') ∧ isLineEnd c = false := by
  have checked : (singleEscapes.all fun escape =>
      !escape.1.isDigit && escape.1 != 'x' && escape.1 != 'u' && !isLineEnd escape.1) = true := rfl
  obtain ⟨front, back, isTable, -⟩ := List.lookup_eq_some_iff.mp isSingle
  have mem : (c, unit) ∈ singleEscapes := by simp [isTable]
  simpa [and_assoc] using List.all_eq_true.mp checked _ mem

/-- What has a string value may stand between quotes. -/
theorem Value.characters (value : Value quote cs units) : Characters quote cs := by
  induction value with
  | nil => exact .nil
  | plain noQuote noBackslash noLineEnd _ _ ih => exact .plain noQuote noBackslash noLineEnd ih
  | single isSingle _ ih =>
    obtain ⟨noDigit, noCode, noLineEnd⟩ := of_isSingle isSingle
    exact .escaped noDigit noCode noLineEnd ih
  | itself _ noDigit noCode noLineEnd _ _ ih => exact .escaped noDigit noCode noLineEnd ih
  | null noDigit _ ih => exact .null noDigit ih
  | byte isHex _ ih => exact .byte isHex ih
  | unit isHex _ ih => exact .unit (.mk rfl isHex) ih
  | continued isLineEnd _ ih => exact .continued isLineEnd ih
  | continuedPair _ ih => exact .continuedPair ih

/-- Nothing that has a value begins with a line feed. -/
theorem Value.ne_lineFeed (value : Value quote cs units) : cs.head? ≠ some '\n' := by
  intro isFeed
  cases value with
  | plain _ _ noLineEnd _ _ =>
    rw [Option.some_inj.mp isFeed] at noLineEnd
    cases noLineEnd
  | _ => cases isFeed

/-- There is one string value. -/
theorem Value.unique (value : Value quote cs units) (value' : Value quote cs others) :
    units = others := by
  -- by the first rule; the character behind a backslash excludes all the others
  induction value generalizing others with
  | nil =>
    cases value' with
    | nil => rfl
  | plain noQuote noBackslash noLineEnd encodes _ ih =>
    cases value' with
    | plain _ _ _ encodes' rest' => rw [encodes.unique encodes', ih rest']
    | _ => contradiction
  | single isSingle _ ih =>
    obtain ⟨noDigit, ⟨noByte, noUnit⟩, noLineEnd⟩ := of_isSingle isSingle
    cases value' with
    | single isSingle' rest' =>
      rw [Option.some_inj.mp (isSingle.symm.trans isSingle'), ih rest']
    | itself noSingle => exact absurd (isSingle.symm.trans noSingle) (Option.some_ne_none _)
    | continued isLineEnd => exact absurd isLineEnd (by simp [noLineEnd])
    | null => cases noDigit
    | continuedPair => cases noLineEnd
    | _ => contradiction
  | itself noSingle noDigit noCode noLineEnd encodes _ ih =>
    obtain ⟨noByte, noUnit⟩ := noCode
    cases value' with
    | itself _ _ _ _ encodes' rest' => rw [encodes.unique encodes', ih rest']
    | single isSingle => exact absurd (isSingle.symm.trans noSingle) (Option.some_ne_none _)
    | continued isLineEnd => exact absurd isLineEnd (by simp [noLineEnd])
    | null => cases noDigit
    | continuedPair => cases noLineEnd
    | _ => contradiction
  | null _ _ ih =>
    cases value' with
    | null _ rest' => rw [ih rest']
    | single isSingle => exact absurd (of_isSingle isSingle).1 (by decide)
    | itself _ noDigit => cases noDigit
    | continued isLineEnd => cases isLineEnd
    | plain => contradiction
  | byte _ _ ih =>
    cases value' with
    | byte _ rest' => rw [ih rest']
    | single isSingle => exact absurd rfl (of_isSingle isSingle).2.1.1
    | itself _ _ noCode => exact absurd rfl noCode.1
    | continued isLineEnd => cases isLineEnd
    | plain => contradiction
  | unit _ _ ih =>
    cases value' with
    | unit _ rest' => rw [ih rest']
    | single isSingle => exact absurd rfl (of_isSingle isSingle).2.1.2
    | itself _ _ noCode => exact absurd rfl noCode.2
    | continued isLineEnd => cases isLineEnd
    | plain => contradiction
  | continued isLineEnd rest ih =>
    cases value' with
    | continued _ rest' => exact ih rest'
    | single isSingle => exact absurd isLineEnd (by simp [(of_isSingle isSingle).2.2])
    | itself _ _ _ noLineEnd => exact absurd isLineEnd (by simp [noLineEnd])
    | null | byte | unit => cases isLineEnd
    | continuedPair => exact absurd rfl rest.ne_lineFeed
    | plain => contradiction
  | continuedPair _ ih =>
    cases value' with
    | continuedPair rest' => exact ih rest'
    | single isSingle => exact absurd (of_isSingle isSingle).2.2 (by decide)
    | itself _ _ _ noLineEnd => cases noLineEnd
    | continued _ rest' => exact absurd rfl rest'.ne_lineFeed
    | plain => contradiction

/-- The text is a string literal in double quotes, with the string value. -/
inductive Denotes : List Char → List Nat → Prop where
  | mk {cs : List Char} {units : List Nat} (value : Value '"' cs units) :
      Denotes ('"' :: (cs ++ ['"'])) units

theorem Denotes.unique {literal : List Char} (denotes : Denotes literal units)
    (denotes' : Denotes literal others) : units = others := by
  obtain ⟨value⟩ := denotes
  generalize isLiteral : '"' :: (_ ++ ['"']) = literal at denotes'
  obtain ⟨value'⟩ := denotes'
  obtain rfl := List.append_cancel_right (List.cons.inj isLiteral).2
  exact value.unique value'

end PascalCompiler.Ecma
