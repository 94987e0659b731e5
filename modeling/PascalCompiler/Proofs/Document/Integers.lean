import Mathlib.Data.List.Induction
import PascalCompiler.Generation.Expr
import PascalCompiler.Proofs.Document.Places
import PascalCompiler.Proofs.Json.Numbers
import PascalCompiler.Proofs.Script.Scanning
import PascalCompiler.Proofs.Text.Utf8

/-!
# Integers from document to script

The integer of a constant is given by a number, or by a string with a numeral. Numbers have no
plus sign and no needless zeros, strings may have both. Either is read as exactly the integer that
it stands for, if this is a 64-bit one, and anything else is reported once, at the member. A script
has the integer as its canonical numeral, which is read as the same integer again.

## Main definitions

* `Numeral.Integral`, `Numeral.Canonical`: numbers without fraction and exponent, and the one
  numeral that scripts have
* `Document.IsInteger`: the value gives the integer
* `Document.Given`: a document gives the value of a constant
* `Document.ReadsAs`: the constant is read with the integer

## Main results

* `Document.integer?_eq_some_iff`: the integers that are read are those that are given
* `Document.integers_exact`: integers are kept from the document to the script and back
-/

namespace PascalCompiler

namespace Numeral

/-- A number without fraction and exponent, and its value. -/
inductive Integral : List Char → Int → Prop where
  | positive {ds : List Char} {n : Nat} (whole : Json.Grammar.Whole ds) (digits : Digits ds n) :
      Integral ds n
  | negative {ds : List Char} {n : Nat} (whole : Json.Grammar.Whole ds) (digits : Digits ds n) :
      Integral ('-' :: ds) (-n)

/-- The numeral of an integer: no plus sign, no needless zero in front, and no sign before zero. -/
inductive Canonical : List Char → Int → Prop where
  | zero : Canonical ['0'] 0
  | positive {d : Char} {ds : List Char} {n : Nat} (nonzero : d ≠ '0')
      (digits : Digits (d :: ds) n) : Canonical (d :: ds) n
  | negative {d : Char} {ds : List Char} {n : Nat} (nonzero : d ≠ '0')
      (digits : Digits (d :: ds) n) : Canonical ('-' :: d :: ds) (-n)

/-! ### Numerals that are read -/

theorem digits_foldl {ds : List Char} (nonempty : ds ≠ []) (all : ∀ c ∈ ds, c.isDigit) :
    Digits ds (ds.foldl (fun n d => 10 * n + (d.toNat - '0'.toNat)) 0) := by
  -- numerals grow by their last digit, and so does the fold
  induction ds using List.reverseRecOn with
  | nil => exact absurd rfl nonempty
  | append_singleton front d ih =>
    obtain ⟨others, last⟩ := List.forall_mem_append.mp all
    have digit : d.isDigit := last d (List.mem_singleton_self d)
    rw [List.foldl_append, List.foldl_cons, List.foldl_nil]
    by_cases first : front = []
    · rw [first, List.foldl_nil, Nat.mul_zero, Nat.zero_add]
      exact .single digit
    · exact .snoc (ih first others) digit

theorem digits?_eq_some_iff {ds : List Char} {n : Nat} : digits? ds = some n ↔ Digits ds n := by
  refine ⟨fun read => ?_, digits?_of_digits⟩
  rw [digits?] at read
  obtain ⟨valid, same⟩ := Option.ite_none_right_eq_some.mp read
  rw [Bool.and_eq_true, List.all_eq_true, Bool.not_eq_true', List.isEmpty_eq_false_iff] at valid
  exact Option.some_inj.mp same ▸ digits_foldl valid.1 valid.2

theorem denotes_of_signed? {numeral : String} {value : Int}
    (read : signed? numeral.toList = some value) : Denotes numeral value := by
  rw [← String.ofList_toList (s := numeral)]
  unfold signed? at read
  split at read
  · next ds same =>
    obtain ⟨m, cast, rfl⟩ := Option.map_eq_some_iff.mp read
    obtain ⟨n, isNumber, isCast⟩ := Option.bind_eq_some_iff.mp cast
    obtain rfl := Option.some_inj.mp isCast
    exact same ▸ .minus (digits?_eq_some_iff.mp isNumber)
  · next ds same =>
    obtain ⟨n, isNumber, rfl⟩ := Option.map_eq_some_iff.mp read
    exact same ▸ .plus (digits?_eq_some_iff.mp isNumber)
  · obtain ⟨n, isNumber, rfl⟩ := Option.map_eq_some_iff.mp read
    exact .unsigned (digits?_eq_some_iff.mp isNumber)

theorem int64?_eq_some_iff {numeral : String} {value : Int} :
    int64? numeral = some value ↔ Denotes numeral value ∧ fitsInt64 value := by
  refine ⟨fun read => ?_, fun given => int64?_of_denotes given.1 given.2⟩
  obtain ⟨signed, fits⟩ := Option.filter_eq_some_iff.mp read
  exact ⟨denotes_of_signed? signed, fits⟩

theorem fitsInt64_iff {value : Int} : fitsInt64 value ↔
    -9223372036854775808 ≤ value ∧ value ≤ 9223372036854775807 := by
  rw [fitsInt64, Bool.and_eq_true, decide_eq_true_eq, decide_eq_true_eq]
  omega

/-! ### Numbers -/

theorem Integral.denotes {cs : List Char} {value : Int} (integral : Integral cs value) :
    Denotes (String.ofList cs) value := by
  cases integral with
  | positive _ digits => exact .unsigned digits
  | negative _ digits => exact .minus digits

/-- A number that is a numeral has neither plus sign nor needless zeros. -/
theorem integral_of_denotes {literal : String} {value : Int} (number : Json.isNumber literal.toList)
    (denotes : Denotes literal value) : Integral literal.toList value := by
  cases denotes with
  | @unsigned ds n digits =>
    obtain ⟨nonempty, all⟩ := isDigit_of_digits digits
    obtain ⟨d, others, rfl⟩ := List.exists_cons_of_ne_nil nonempty
    have noMinus : d ≠ '-' := Json.ne_of_isDigit (all d List.mem_cons_self) rfl
    rw [String.toList_ofList] at number ⊢
    rw [Json.isNumber_of_ne_minus noMinus] at number
    exact .positive (Json.whole_of_isUnsigned all number) digits
  | plus digits =>
    -- no number begins with a plus sign
    rw [String.toList_ofList] at number
    cases number
  | minus digits =>
    rw [String.toList_ofList] at number ⊢
    exact .negative (Json.whole_of_isUnsigned (isDigit_of_digits digits).2 number) digits

theorem Integral.number {cs : List Char} {value : Int} (integral : Integral cs value) :
    Json.Grammar.Number cs := by
  cases integral with
  | positive whole _ =>
    have number := Json.Grammar.Number.positive whole .absent .absent
    rwa [List.append_nil, List.append_nil] at number
  | @negative ds _ whole _ =>
    have number := Json.Grammar.Number.negative whole .absent .absent
    rwa [List.append_nil, List.append_nil] at number

/-! ### Numerals of scripts -/

theorem digits_toDigits (n : Nat) : Digits (Nat.toDigits 10 n) n := by
  have all : ∀ m < 10, m.digitChar.isDigit ∧ m.digitChar.toNat - '0'.toNat = m := by decide
  induction n using Nat.strongRecOn with
  | _ n ih =>
    by_cases small : n < 10
    · obtain ⟨digit, value⟩ := all n small
      have single := Digits.single digit
      rwa [value, ← Nat.toDigits_of_lt_base small] at single
    · -- the digits in front of the last one are those of a smaller number
      obtain ⟨digit, value⟩ := all (n % 10) (Nat.mod_lt n (by decide))
      have snoc := (ih (n / 10) (by omega)).snoc digit
      rwa [value, Nat.div_add_mod,
        ← Nat.toDigits_of_base_le (by decide) (Nat.le_of_not_lt small)] at snoc

theorem canonical_decimal (value : Int) : Canonical (decimal value).toList value := by
  cases value with
  | ofNat n =>
    rw [decimal, String.toList_ofList]
    cases n with
    | zero => exact .zero
    | succ n =>
      obtain ⟨d, ds, same, -, nonzero, -⟩ := Script.toDigits_eq_cons n.succ_pos
      have digits := digits_toDigits (n + 1)
      rw [same] at digits ⊢
      exact .positive nonzero digits
  | negSucc n =>
    rw [decimal, String.toList_ofList]
    obtain ⟨d, ds, same, -, nonzero, -⟩ := Script.toDigits_eq_cons n.succ_pos
    have digits := digits_toDigits (n + 1)
    rw [same] at digits ⊢
    exact .negative nonzero digits

theorem Canonical.integral {cs : List Char} {value : Int} (canonical : Canonical cs value) :
    Integral cs value := by
  have whole {d : Char} {ds : List Char} {n : Nat} (nonzero : d ≠ '0')
      (digits : Digits (d :: ds) n) : Json.Grammar.Whole (d :: ds) := by
    obtain ⟨first, others⟩ := List.forall_mem_cons.mp (isDigit_of_digits digits).2
    exact .digits first nonzero others
  cases canonical with
  | zero => exact .positive .zero (.single (d := '0') rfl)
  | positive nonzero digits => exact .positive (whole nonzero digits) digits
  | negative nonzero digits => exact .negative (whole nonzero digits) digits

end Numeral

namespace Document

open Numeral (Integral Canonical)

/-! ### Values that give integers -/

/-- The value gives the 64-bit integer: it is a number without fraction and exponent, or a string
of digits with an optional sign. -/
inductive IsInteger : Json → Int → Prop where
  | number {cs : List Char} {n : Int} (integral : Integral cs n)
      (least : -9223372036854775808 ≤ n) (greatest : n ≤ 9223372036854775807) :
      IsInteger (.number (String.ofList cs)) n
  | string {span : Span} {numeral : String} {n : Int} (denotes : Numeral.Denotes numeral n)
      (least : -9223372036854775808 ≤ n) (greatest : n ≤ 9223372036854775807) :
      IsInteger (.string span numeral) n

/-- The integers that are read are those that are given. -/
theorem integer?_eq_some_iff {value : Json} (spelled : value.Spelled) {n : Int} :
    Object.integer? value = some n ↔ IsInteger value n := by
  constructor
  · intro read
    cases spelled with
    | @number literal isNumber =>
      obtain ⟨denotes, fits⟩ := Numeral.int64?_eq_some_iff.mp read
      obtain ⟨least, greatest⟩ := Numeral.fitsInt64_iff.mp fits
      rw [← String.ofList_toList (s := literal)]
      exact .number (Numeral.integral_of_denotes isNumber denotes) least greatest
    | string =>
      obtain ⟨denotes, fits⟩ := Numeral.int64?_eq_some_iff.mp read
      obtain ⟨least, greatest⟩ := Numeral.fitsInt64_iff.mp fits
      exact .string denotes least greatest
    | _ => cases read
  · rintro (⟨integral, least, greatest⟩ | ⟨denotes, least, greatest⟩)
    · exact Numeral.int64?_of_denotes integral.denotes (Numeral.fitsInt64_iff.mpr ⟨least, greatest⟩)
    · exact Numeral.int64?_of_denotes denotes (Numeral.fitsInt64_iff.mpr ⟨least, greatest⟩)

/-- A canonical numeral gives its integer, as a number and as a string. -/
theorem isInteger_of_canonical {value : Json} {n : Int} (isInteger : IsInteger value n)
    {numeral : String} (canonical : Canonical numeral.toList n) :
    IsInteger (.number numeral) n ∧ ∀ span, IsInteger (.string span numeral) n := by
  have bounds : -9223372036854775808 ≤ n ∧ n ≤ 9223372036854775807 := by
    cases isInteger with
    | number _ least greatest => exact ⟨least, greatest⟩
    | string _ least greatest => exact ⟨least, greatest⟩
  have number := IsInteger.number canonical.integral bounds.1 bounds.2
  have denotes := canonical.integral.denotes
  rw [String.ofList_toList] at number denotes
  exact ⟨number, fun span => .string denotes bounds.1 bounds.2⟩

/-! ### Numerals as texts -/

section Texts

open Json.Grammar

theorem ofString_of_ascii {text : String} (small : ∀ c ∈ text.toList, c.toNat < 0x80) :
    Bytes.ofString text = text.toList.map ascii := by
  have encoded : ∀ c ∈ text.toList, String.utf8EncodeChar c = [ascii c] := by
    intro c mem
    rw [String.utf8EncodeChar]
    exact if_pos (Nat.le_of_lt_succ (small c mem))
  rw [Utf8.ofString_eq_encode, Utf8.encode, List.map_eq_flatMap]
  exact List.flatMap_congr encoded

/-- What numbers are made of can stand between quotes. -/
theorem isPlain_of_inNumber {c : Char} (inNumber : Json.Scanner.inNumber c) : isPlain c := by
  simp only [Json.Scanner.inNumber, Bool.or_eq_true, beq_iff_eq] at inNumber
  obtain ((((digit | rfl) | rfl) | rfl) | rfl) | rfl := inNumber
  · have noQuote : c ≠ '"' := Json.ne_of_isDigit digit rfl
    have noBackslash : c ≠ '\\' := Json.ne_of_isDigit digit rfl
    have small := Json.toNat_lt_of_isDigit digit
    simp only [Char.isDigit, Bool.and_eq_true, decide_eq_true_eq] at digit
    have printable : 0x20 ≤ c.toNat :=
      Nat.le_trans (by decide) (UInt32.le_iff_toNat_le.mp digit.1)
    simp only [isPlain, Bool.and_eq_true, decide_eq_true_eq, bne_iff_ne]
    exact ⟨⟨⟨printable, small⟩, noQuote⟩, noBackslash⟩
  all_goals decide

theorem isPlain_of_number {cs : List Char} (number : Number cs) : ∀ c ∈ cs, isPlain c := by
  obtain ⟨c, rest, rfl, first, others⟩ := Json.number_cons number
  have inNumber : Json.Scanner.inNumber c := by
    obtain rfl | digit := first
    · rfl
    · exact Json.inNumber_of_isDigit digit
  exact List.forall_mem_cons.mpr
    ⟨isPlain_of_inNumber inNumber, fun d mem => isPlain_of_inNumber (others d mem)⟩

theorem toNat_lt_of_isPlain {c : Char} (plain : isPlain c) : c.toNat < 0x80 := by
  simp only [isPlain, Bool.and_eq_true, decide_eq_true_eq] at plain
  exact plain.1.1.2

/-- A number is a text of its own. -/
theorem parse?_number {literal : String} (number : Number literal.toList) :
    Json.parse? (.ofString literal) = some (.number literal) := by
  have plain := isPlain_of_number number
  have written : Text _ _ := padded_compact (.number number)
  rw [List.append_nil, String.ofList_toList, ← ofString_of_ascii fun c mem =>
    toNat_lt_of_isPlain (plain c mem)] at written
  exact Json.parse?_of_text written (Nat.zero_le _)

/-- So is a number between quotes. -/
theorem parse?_quoted {literal : String} (number : Number literal.toList) :
    ∃ span, Json.parse? (.ofString ("\"" ++ literal ++ "\"")) = some (.string span literal) := by
  have plain := isPlain_of_number number
  have written : Text _ _ := padded_compact (value_plain literal (List.all_eq_true.mpr plain))
  have bytes : Bytes.ofString ("\"" ++ literal ++ "\"") = inQuotes literal := by
    have chars : ("\"" ++ literal ++ "\"").toList = '"' :: (literal.toList ++ ['"']) := by
      simp
    rw [ofString_of_ascii, chars, inQuotes, List.map_cons, List.map_append]
    · rfl
    · rw [chars]
      refine List.forall_mem_cons.mpr ⟨by decide, List.forall_mem_append.mpr ⟨?_, ?_⟩⟩
      · exact fun c mem => toNat_lt_of_isPlain (plain c mem)
      · exact List.forall_mem_singleton.mpr (by decide)
  rw [List.append_nil, ← bytes] at written
  exact ⟨_, Json.parse?_of_text written (Nat.zero_le _)⟩

end Texts

/-! ### Values in a document -/

theorem spelled_of_holds {members : List (String × Json)} {name : String} {value : Json}
    (spelled : ∀ member ∈ members, member.2.Spelled) (holds : Holds members name value) :
    value.Spelled := by
  obtain ⟨before, after, rfl, -⟩ := holds
  exact spelled (name, value) (List.mem_append_right _ List.mem_cons_self)

theorem spelled_members {span : Span} {members : List (String × Json)}
    (spelled : (Json.object span members).Spelled) : ∀ member ∈ members, member.2.Spelled := by
  cases spelled with
  | object each => exact each

theorem spelled_items {span : Span} {items : List Json}
    (spelled : (Json.array span items).Spelled) : ∀ item ∈ items, item.Spelled := by
  cases spelled with
  | array each => exact each

/-- What is reached is spelled as the whole document is. -/
theorem Reached.spelled {root value : Json} {path : Path} (reached : Reached root path value)
    (spelled : root.Spelled) : value.Spelled := by
  induction reached with
  | root => exact spelled
  | step _ leads ih =>
    cases leads with
    | mk tags known isField reads =>
      have each := spelled_members ih
      cases reads with
      | child stands => exact spelled_of_holds each stands.holds
      | item holds isItem =>
        exact spelled_items (spelled_of_holds each holds) _ (List.mem_of_getElem? isItem)
      | comment holds isKey stands =>
        exact spelled_of_holds (spelled_members (spelled_of_holds each holds)) stands.holds

/-- The kinds of constants with an integer, and the expressions that they are read as. -/
inductive Numeric : Kind → (Position → Int → Expr) → Prop where
  | integer : Numeric .integerConstant .integer
  | control : Numeric .controlString .control

/-- The document gives the value of a constant, which is read as a node at the path. -/
inductive Given (text : Bytes) (kind : Kind) (path : Path) (members : List (String × Json))
    (value : Json) : Prop where
  | mk {json : Json} {span : Span} (parsed : Json.parse? text = some json)
      (reached : Reached json path (.object span members)) (tags : Tags members kind.tag)
      (holds : Holds members "value" value) : Given text kind path members value

/-- What is noted at the place, if the document is refused for its defects. -/
def defectsAt (place : Path) : Except Error File → List Defect
  | .error (.defects list) => list.filter (·.path = place)
  | _ => []

/-- What is wrong with the value of a constant that gives no integer. -/
def integerFault (text : Bytes) : Json → Cause
  | .null => .missing "value"
  | value => .notInteger (value.written text)

/-- The value of the constant is accepted and read as the integer: nothing is noted of it, the
expression has the integer, and so has the tree if there is one. -/
structure ReadsAs (name : String) (text : Bytes) (path : Path) (members : List (String × Json))
    (constant : Position → Int → Expr) (n : Int) : Prop where
  unnoted : defectsAt (path.member "value") (decode name text) = []
  read : ∀ span, ((view ⟨name, text⟩ (.object span members)).node path).value =
    some (.expr (constant (placeOf ⟨name, text⟩ members path) n))
  within : ∀ file, decode name text = .ok file →
    file.node.Within (.expr (constant (placeOf ⟨name, text⟩ members path) n))

/-- Wherever a document gives the value of a constant, it is read as the integer. -/
def AlwaysReadsAs (value : Json) (n : Int) : Prop :=
  ∀ name text kind constant path members, Numeric kind constant →
    Given text kind path members value → ReadsAs name text path members constant n

section Constants

variable {name : String} {text : Bytes} {kind : Kind} {constant : Position → Int → Expr}
  {path : Path} {members : List (String × Json)} {value : Json} {position : Position}

/-- A member that gives an integer is read as this integer. -/
theorem integer_of_holds (source : Source) {n : Int} (holds : Holds members "value" value)
    (read : Object.integer? value = some n) :
    (viewed source members path position).integer source.text "value" = pure n := by
  have there : value ≠ .null := by
    rintro rfl
    cases read
  rw [Object.integer, slot_of_stands (.first holds there)]
  simp only [view_json, read]

/-- Anything else is noted at the member. -/
theorem defects_integer_of_holds (source : Source) (holds : Holds members "value" value)
    (unread : Object.integer? value = none) :
    ((viewed source members path position).integer source.text "value").defects =
      [⟨position, path.member "value", integerFault source.text value⟩] := by
  obtain ⟨other, held, there⟩ | omits := holds_or_omits members "value"
  · obtain rfl := holds.unique held
    rw [Object.integer, slot_of_stands (.first holds there)]
    simp only [view_json, unread]
    cases value with
    | null => exact absurd rfl there
    | _ => rfl
  · -- what is left out is null here
    obtain nothing | null := lacks_iff.mp (omits "value" List.mem_cons_self)
    · cases nothing.symm.trans (lookupLast_of_holds holds)
    · obtain rfl := Option.some_inj.mp ((lookupLast_of_holds holds).symm.trans null)
      rw [Object.integer, slot_of_omits omits]
      rfl

theorem Numeric.known (numeric : Numeric kind constant) : kind ∈ Kind.all := by
  cases numeric <;> decide

theorem Numeric.fields (numeric : Numeric kind constant) (listed : Bool) :
    kind.fields listed = [.integer "value"] := by
  cases numeric <;> rfl

/-- The expression has the integer that is read from the member. -/
theorem Numeric.value_node (numeric : Numeric kind constant) {source : Source} {span : Span}
    (tags : Tags members kind.tag) :
    ((view source (.object span members)).node path).value =
      some (.expr (constant (placeOf source members path)
        ((viewed source members path (placeOf source members path)).integer source.text
          "value").value)) := by
  have read : (view source (.object span members)).node path = _ :=
    readObject_of_tags tags numeric.known
  rw [read]
  cases numeric <;> rfl

/-- What is noted at a place is noted of the root. -/
theorem defectsAt_decode {json : Json} {span : Span} {place : Path}
    (parsed : Json.parse? text = some json) (reached : Reached json path (.object span members)) :
    defectsAt place (decode name text) =
      ((view ⟨name, text⟩ json).node .root).defects.filter (·.path = place) := by
  by_cases clean : ((view ⟨name, text⟩ json).node .root).defects = []
  · rw [clean, List.filter_nil]
    cases result : decode name text with
    | ok file => rfl
    | error error =>
      cases error with
      | defects list =>
        rw [defects_of_decode parsed result, clean]
        rfl
      | _ => rfl
  · obtain ⟨defect, mem⟩ := List.exists_mem_of_ne_nil _ clean
    rw [decode_of_reached parsed reached mem]
    rfl

/-- At the member of a constant, nothing is noted but what its own reading notes. -/
theorem defectsAt_value (name : String) (numeric : Numeric kind constant) {json : Json}
    {span : Span} (parsed : Json.parse? text = some json)
    (reached : Reached json path (.object span members)) (tags : Tags members kind.tag) :
    (defectsAt (path.member "value") (decode name text)).Perm
      ((viewed ⟨name, text⟩ members path (placeOf ⟨name, text⟩ members path)).integer text
        "value").defects := by
  have isField : .integer "value" ∈ kind.fields (listsHandlers members) := by
    rw [numeric.fields]
    exact List.mem_singleton_self _
  rw [defectsAt_decode parsed reached]
  refine (reached.perm_filter (Path.inside_member path "value")).trans ?_
  refine (perm_filter_of_tags tags numeric.known isField (List.mem_singleton_self "value")
    (.refl _)).trans (.of_eq ?_)
  exact List.filter_eq_self.mpr fun defect mem => decide_eq_true (path_of_mem_integer mem)

/-- The value of a constant has the literals of numbers, like all of the document. -/
theorem Given.spelled (given : Given text kind path members value) : value.Spelled := by
  obtain ⟨parsed, reached, -, holds⟩ := given
  exact spelled_of_holds (spelled_members (reached.spelled (Json.spelled_of_parse? parsed))) holds

/-- A value that gives an integer is read as this integer. -/
theorem Given.readsAs (given : Given text kind path members value)
    (numeric : Numeric kind constant) {n : Int} (isInteger : IsInteger value n) :
    ReadsAs name text path members constant n := by
  have read := (integer?_eq_some_iff given.spelled).mpr isInteger
  obtain ⟨parsed, reached, tags, holds⟩ := given
  have node (span : Span) : ((view ⟨name, text⟩ (.object span members)).node path).value =
      some (.expr (constant (placeOf ⟨name, text⟩ members path) n)) := by
    rw [numeric.value_node tags, integer_of_holds _ holds read]
    rfl
  -- the rest of the document may have defects of its own, but none at this member
  refine ⟨?_, node, fun file accepted => ?_⟩
  · have noted := defectsAt_value name numeric parsed reached tags
    rw [integer_of_holds ⟨name, text⟩ holds read] at noted
    exact noted.eq_nil
  · obtain ⟨other, parsed', clean, whole⟩ := reading_of_decode accepted
    obtain rfl := Option.some_inj.mp (parsed.symm.trans parsed')
    exact reached.within clean whole (node _)

/-- A value that gives no integer is noted once. -/
theorem Given.defectsAt_eq (given : Given text kind path members value)
    (numeric : Numeric kind constant) (noInteger : ∀ n, ¬ IsInteger value n) :
    defectsAt (path.member "value") (decode name text) =
      [⟨placeOf ⟨name, text⟩ members path, path.member "value", integerFault text value⟩] := by
  have unread : Object.integer? value = none :=
    Option.eq_none_iff_forall_ne_some.mpr fun n read =>
      noInteger n ((integer?_eq_some_iff given.spelled).mp read)
  obtain ⟨parsed, reached, tags, holds⟩ := given
  have noted := defectsAt_value name numeric parsed reached tags
  rw [defects_integer_of_holds ⟨name, text⟩ holds unread] at noted
  exact noted.eq_singleton

end Constants

/-! ### Integers from end to end -/

/-- A constant is accepted exactly if its value is a number without fraction and exponent, or a
string of digits with an optional sign, for a 64-bit integer. It is read as exactly this integer,
and any other value is noted once, at the member. A script has the integer as its canonical
numeral, and this is read as the same integer, as a number and as a string. -/
theorem integers_exact (name : String) {text : Bytes} {kind : Kind}
    {constant : Position → Int → Expr} {path : Path} {members : List (String × Json)}
    {value : Json} (numeric : Numeric kind constant)
    (given : Given text kind path members value) :
    (defectsAt (path.member "value") (decode name text) = [] ↔ ∃ n, IsInteger value n) ∧
    (∀ n, ReadsAs name text path members constant n ↔ IsInteger value n) ∧
    ((∀ n, ¬ IsInteger value n) →
      defectsAt (path.member "value") (decode name text) =
        [⟨placeOf ⟨name, text⟩ members path, path.member "value", integerFault text value⟩]) ∧
    (kind = .integerConstant → ∀ n, IsInteger value n →
      ∃ numeral, Canonical numeral.toList n ∧
        (∀ context position, ∃ script,
          Generation.answer context (Generation.expr (constant position n)) = .ok script ∧
            script.print = numeral) ∧
        Json.parse? (.ofString numeral) = some (.number numeral) ∧
        (∃ span, Json.parse? (.ofString ("\"" ++ numeral ++ "\"")) =
          some (.string span numeral)) ∧
        AlwaysReadsAs (.number numeral) n ∧
        ∀ span, AlwaysReadsAs (.string span numeral) n) := by
  have accepted : defectsAt (path.member "value") (decode name text) = [] →
      ∃ n, IsInteger value n := by
    intro unnoted
    by_contra noInteger
    rw [given.defectsAt_eq numeric (not_exists.mp noInteger)] at unnoted
    cases unnoted
  refine ⟨⟨accepted, ?_⟩, fun n => ⟨fun reads => ?_, given.readsAs numeric⟩,
    given.defectsAt_eq numeric, ?_⟩
  · rintro ⟨n, isInteger⟩
    exact (given.readsAs numeric isInteger).unnoted
  · -- the expression tells which integer was read
    obtain ⟨m, isInteger⟩ := accepted reads.unnoted
    have same := (reads.read ⟨0, 0⟩).symm.trans
      ((given.readsAs numeric isInteger).read ⟨0, 0⟩)
    cases numeric with
    | integer =>
      obtain ⟨-, rfl⟩ := Expr.integer.inj (Node.expr.inj (Option.some_inj.mp same))
      exact isInteger
    | control =>
      obtain ⟨-, rfl⟩ := Expr.control.inj (Node.expr.inj (Option.some_inj.mp same))
      exact isInteger
  · rintro rfl n isInteger
    have canonical := Numeral.canonical_decimal n
    obtain ⟨asNumber, asString⟩ := isInteger_of_canonical isInteger canonical
    refine ⟨Numeral.decimal n, canonical, fun context position => ?_,
      parse?_number canonical.integral.number, parse?_quoted canonical.integral.number,
      fun _ _ _ _ _ _ numeric' given' => given'.readsAs numeric' asNumber,
      fun span _ _ _ _ _ _ numeric' given' => given'.readsAs numeric' (asString span)⟩
    cases numeric with
    | integer =>
      refine ⟨.integer n, ?_, by rw [Script.Expr.print]⟩
      rw [Generation.expr, Generation.answer_pure]

/-- A program with the call `P(-007)`, in which the argument is given as a string. -/
def paddedCall : Bytes :=
  .ofString ("\x7b\"type\":\"program\",\"body\":\x7b\"type\":\"block\",\"statements\":" ++
    "\x7b\"type\":\"compound_statement\",\"list\":[" ++
    "\x7b\"type\":\"procedure_statement\",\"target\":\x7b\"type\":\"identifier\"," ++
    "\"value\":\"P\"\x7d,\"params\":[\x7b\"type\":\"integer_constant\",\"value\":\"-007\"" ++
    "\x7d]\x7d]\x7d\x7d\x7d")

/-- A control string with the least number that is too great. -/
def wideControl : Bytes :=
  .ofString "\x7b\"type\":\"control_string\",\"value\":9223372036854775808\x7d"

open Json.Grammar in
theorem given_paddedCall :
    ∃ path members span, Given paddedCall .integerConstant path members (.string span "-007") := by
  have constant {n : Nat} : Value n _ _ :=
    .object (.cons (member_compact "type" (by decide) (value_plain "integer_constant" (by decide)))
      (.last (member_compact "value" (by decide) (value_plain "-007" (by decide)))))
  have target {n : Nat} : Value n _ _ :=
    .object (.cons (member_compact "type" (by decide) (value_plain "identifier" (by decide)))
      (.last (member_compact "value" (by decide) (value_plain "P" (by decide)))))
  have call {n : Nat} : Value n _ _ :=
    .object (.cons (member_compact "type" (by decide)
        (value_plain "procedure_statement" (by decide)))
      (.cons (member_compact "target" (by decide) target)
        (.last (member_compact "params" (by decide) (.array (.last (padded_compact constant)))))))
  have statements {n : Nat} : Value n _ _ :=
    .object (.cons (member_compact "type" (by decide)
        (value_plain "compound_statement" (by decide)))
      (.last (member_compact "list" (by decide) (.array (.last (padded_compact call))))))
  have block {n : Nat} : Value n _ _ :=
    .object (.cons (member_compact "type" (by decide) (value_plain "block" (by decide)))
      (.last (member_compact "statements" (by decide) statements)))
  have program {n : Nat} : Value n _ _ :=
    .object (.cons (member_compact "type" (by decide) (value_plain "program" (by decide)))
      (.last (member_compact "body" (by decide) block)))
  have written := text_of_eq (padded_compact program) (by decide +kernel : _ = paddedCall)
  obtain ⟨parsed, top⟩ := Reached.of_text written (Nat.le_of_ble_eq_true rfl)
  have body := top.child .program (holds_head (by simp)) (by decide)
    (List.mem_of_getElem? (i := 2) rfl) ((holds_head (by simp)).cons _) (by simp)
  have list := body.child .block (holds_head (by simp)) (by decide)
    (List.mem_of_getElem? (i := 1) rfl) ((holds_head (by simp)).cons _) (by simp)
  have statement := list.item .compoundStatement (holds_head (by simp)) (by decide)
    (List.mem_of_getElem? (i := 0) rfl) ((holds_head (by simp)).cons _) 0 rfl
  have argument := statement.item .procedureStatement (holds_head (by simp)) (by decide)
    (List.mem_of_getElem? (i := 1) rfl) (((holds_head (by simp)).cons _).cons _) 0 rfl
  exact ⟨_, _, _, .mk parsed argument (.string (holds_head (by simp)))
    ((holds_head (by simp)).cons _)⟩

open Json.Grammar in
theorem given_wideControl :
    ∃ tag, Given wideControl .controlString .root
      [("type", tag), ("value", .number "9223372036854775808")]
      (.number "9223372036854775808") := by
  have whole : Whole ['9', '2', '2', '3', '3', '7', '2', '0', '3', '6', '8', '5', '4', '7', '7',
      '5', '8', '0', '8'] := .digits rfl (by decide) (List.all_eq_true.mp rfl)
  have number {n : Nat} : Value n _ _ := .number (.positive whole .absent .absent)
  have control {n : Nat} : Value n _ _ :=
    .object (.cons (member_compact "type" (by decide) (value_plain "control_string" (by decide)))
      (.last (member_compact "value" (by decide) number)))
  have written := text_of_eq (padded_compact control) (by decide +kernel : _ = wideControl)
  obtain ⟨parsed, top⟩ := Reached.of_text written (Nat.le_of_ble_eq_true rfl)
  exact ⟨_, .mk parsed top (.string (holds_head (by simp)))
    ((holds_head (by simp)).cons _)⟩

/-- The program is read with the integer -7, whose numeral has no zeros, and the control string is
reported with its number as written. -/
theorem integers_exact_paddedCall :
    (∃ file position numeral, decode "x.json" paddedCall = .ok file ∧
      file.node.Within (.expr (.integer position (-7))) ∧ Canonical numeral.toList (-7) ∧
      AlwaysReadsAs (.number numeral) (-7)) ∧
    defectsAt (.member .root "value") (decode "x.json" wideControl) =
      [⟨.unknown, .member .root "value", .notInteger (.ofString "9223372036854775808")⟩] := by
  obtain ⟨file, accepted⟩ := exists_file_of_isSome (by decide +kernel :
    (decode "x.json" paddedCall).toOption.isSome = true)
  obtain ⟨path, members, span, padded⟩ := given_paddedCall
  obtain ⟨tag, wide⟩ := given_wideControl
  have isInteger : IsInteger (.string span "-007") (-7) :=
    (integer?_eq_some_iff .string).mp (by decide +kernel : Numeral.int64? "-007" = some (-7))
  have tooGreat (n : Int) : ¬ IsInteger (.number "9223372036854775808") n := by
    intro isInteger
    have spelled : (Json.number "9223372036854775808").Spelled := .number (by decide +kernel)
    have nothing : Object.integer? (.number "9223372036854775808") = none := by decide +kernel
    cases nothing.symm.trans ((integer?_eq_some_iff spelled).mpr isInteger)
  obtain ⟨-, reads, -, emits⟩ := integers_exact "x.json" .integer padded
  obtain ⟨-, -, noted, -⟩ := integers_exact "x.json" .control wide
  obtain ⟨numeral, canonical, -, -, -, again, -⟩ := emits rfl (-7) isInteger
  exact ⟨⟨file, _, numeral, accepted, ((reads (-7)).mpr isInteger).within file accepted, canonical,
    again⟩, noted tooGreat⟩

end Document

end PascalCompiler
