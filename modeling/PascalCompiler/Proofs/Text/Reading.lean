import PascalCompiler.Json.Token
import PascalCompiler.Proofs.Script.Scanning
import PascalCompiler.Text.Quoted

/-!
# Reading numerals and quoted text

A numeral stands for one number and a quoted text for one text. Quoted text also says where
it ends: whatever follows it, the text between the quotes can be told from what is behind.

## Main definitions

* `Numeral.hexValue`: the number that hexadecimal digits stand for
* `Quoted.unescape`: the first character of what stands between quotes, and the rest

## Main results

* `Numeral.decimal_injective`: a decimal numeral stands for one integer
* `Quoted.quote_append_injective`: a quoted text stands for one text and ends where it ends
-/

namespace PascalCompiler

/-! ### Cutting a text -/

section Cut

variable {α : Type} {mark : α} {first second rest rest' : List α}

/-- Lists that are cut at the first mark are cut at the same place. -/
theorem append_cons_injective (free : mark ∉ first) (free' : mark ∉ second)
    (same : first ++ mark :: rest = second ++ mark :: rest') : first = second ∧ rest = rest' := by
  induction first generalizing second with
  | nil =>
    cases second with
    | nil => exact ⟨rfl, (List.cons.inj same).2⟩
    | cons b second => exact absurd ((List.cons.inj same).1 ▸ List.mem_cons_self) free'
  | cons a first ih =>
    cases second with
    | nil => exact absurd ((List.cons.inj same).1 ▸ List.mem_cons_self) free
    | cons b second =>
      obtain ⟨rfl, behind⟩ := List.cons.inj same
      obtain ⟨rfl, rest⟩ :=
        ih (fun mem => free (.tail _ mem)) (fun mem => free' (.tail _ mem)) behind
      exact ⟨rfl, rest⟩

/-- Lists that are cut at the last mark are cut at the same place. -/
theorem append_cons_injective_last (free : mark ∉ rest) (free' : mark ∉ rest')
    (same : first ++ mark :: rest = second ++ mark :: rest') : first = second ∧ rest = rest' := by
  have reversed := congrArg List.reverse same
  simp only [List.reverse_append, List.reverse_cons, List.append_assoc, List.singleton_append]
    at reversed
  obtain ⟨behind, front⟩ := append_cons_injective (mt List.mem_reverse.mp free)
    (mt List.mem_reverse.mp free') reversed
  exact ⟨List.reverse_inj.mp front, List.reverse_inj.mp behind⟩

/-- Lists that end where a mark follows, or nothing, end at the same place. -/
theorem append_injective_of_head (free : mark ∉ first) (free' : mark ∉ second)
    (stops : ∀ a ∈ rest.head?, a = mark) (stops' : ∀ a ∈ rest'.head?, a = mark)
    (same : first ++ rest = second ++ rest') : first = second ∧ rest = rest' := by
  cases rest with
  | nil =>
    cases rest' with
    | nil => exact ⟨List.append_cancel_right same, rfl⟩
    | cons b rest' =>
      obtain rfl := stops' b rfl
      rw [List.append_nil] at same
      exact absurd (same ▸ List.mem_append_right second List.mem_cons_self) free
  | cons a rest =>
    obtain rfl := stops a rfl
    cases rest' with
    | nil =>
      rw [List.append_nil] at same
      exact absurd (same ▸ List.mem_append_right first List.mem_cons_self) free'
    | cons b rest' =>
      obtain rfl := stops' b rfl
      obtain ⟨rfl, rfl⟩ := append_cons_injective free free' same
      exact ⟨rfl, rfl⟩

end Cut

/-! ### Numerals -/

namespace Numeral

theorem toDigits_injective {m n : Nat} (same : Nat.toDigits 10 m = Nat.toDigits 10 n) : m = n := by
  rw [← Nat.ofDigitChars_toDigits (n := m) (by decide : 1 < 10) (by decide), same,
    Nat.ofDigitChars_toDigits (by decide) (by decide)]

/-- A decimal numeral is made of digits, with a minus sign in front of them or not. -/
theorem decimal_eq_cons (value : Int) :
    ∃ c cs, (decimal value).toList = c :: cs ∧ (c.isDigit ∨ c = '-') ∧ ∀ d ∈ cs, d.isDigit := by
  have digits (n : Nat) : ∀ d ∈ Nat.toDigits 10 n, d.isDigit :=
    fun d mem => Nat.isDigit_of_mem_toDigits (by decide) (by decide) mem
  cases value with
  | ofNat n =>
    rw [decimal, String.toList_ofList]
    cases n with
    | zero => exact ⟨'0', [], rfl, .inl rfl, List.forall_mem_nil _⟩
    | succ n =>
      obtain ⟨d, ds, same, isDigit, -, others⟩ := Script.toDigits_eq_cons n.succ_pos
      exact ⟨d, ds, same, .inl isDigit, others⟩
  | negSucc n => exact ⟨'-', _, String.toList_ofList, .inr rfl, digits (n + 1)⟩

/-- Only digits and the minus sign are in decimal numerals. -/
theorem not_mem_decimal {mark : Char} (value : Int) (noDigit : mark.isDigit = false)
    (noMinus : mark ≠ '-') : mark ∉ (decimal value).toList := by
  obtain ⟨c, cs, same, first, others⟩ := decimal_eq_cons value
  rw [same]
  intro mem
  rcases List.mem_cons.mp mem with rfl | mem
  · rcases first with isDigit | isMinus
    · exact absurd isDigit (by simp [noDigit])
    · exact noMinus isMinus
  · exact absurd (others mark mem) (by simp [noDigit])

/-- A decimal numeral stands for one integer. -/
theorem decimal_injective {first second : Int} (same : decimal first = decimal second) :
    first = second := by
  have noMinus (n : Nat) {ds : List Char} : Nat.toDigits 10 n ≠ '-' :: ds := by
    intro wrong
    have isDigit := Nat.isDigit_of_mem_toDigits (by decide) (by decide)
      (wrong ▸ List.mem_cons_self : '-' ∈ Nat.toDigits 10 n)
    cases isDigit
  cases first with
  | ofNat m =>
    cases second with
    | ofNat n => exact congrArg Int.ofNat (toDigits_injective (String.ofList_injective same))
    | negSucc n => exact absurd (String.ofList_injective same) (noMinus m)
  | negSucc m =>
    cases second with
    | ofNat n => exact absurd (String.ofList_injective same).symm (noMinus n)
    | negSucc n =>
      have digits := (List.cons.inj (String.ofList_injective same)).2
      exact congrArg Int.negSucc (Nat.succ_inj.mp (toDigits_injective digits))

/-- The number that hexadecimal digits stand for. -/
def hexValue (digits : List Char) : Nat :=
  digits.foldl (fun n d => 16 * n + (Json.hexDigit? d).getD 0) 0

theorem hexValue_toDigits (n : Nat) : hexValue (Nat.toDigits 16 n) = n := by
  have all : ∀ m < 16, (Json.hexDigit? m.digitChar).getD 0 = m := by decide
  induction n using Nat.strongRecOn with
  | _ n ih =>
    by_cases small : n < 16
    · rw [Nat.toDigits_of_lt_base small]
      exact (Nat.zero_add _).trans (all n small)
    · -- the last digit is the remainder
      have shorter : hexValue (Nat.toDigits 16 (n / 16)) = n / 16 := ih (n / 16) (by omega)
      rw [Nat.toDigits_of_base_le (by decide) (Nat.le_of_not_lt small), hexValue,
        List.foldl_append, ← hexValue, shorter]
      simp only [List.foldl_cons, List.foldl_nil, all (n % 16) (Nat.mod_lt n (by decide))]
      omega

/-- Zeros in front do not change a number. -/
theorem hexValue_hex (width n : Nat) : hexValue (hex width n).toList = n := by
  rw [hex, String.toList_ofList, hexValue, List.foldl_append]
  have zeros : ∀ count, (List.replicate count '0').foldl
      (fun n d => 16 * n + (Json.hexDigit? d).getD 0) 0 = 0 := by
    intro count
    induction count with
    | zero => rfl
    | succ count ih => exact ih
  rw [zeros]
  exact hexValue_toDigits n

end Numeral

/-! ### Quoted text -/

namespace Quoted

open Numeral

/-- The characters that are written as a backslash and a letter or sign. -/
def marked : List (Char × Char) :=
  [('"', '"'), ('\\', '\\'), ('a', '\x07'), ('b', '\x08'), ('f', '\x0C'), ('n', '\n'), ('r', '\r'),
    ('t', '\t'), ('v', '\x0B')]

/-- The letters that stand before hexadecimal digits, with the number of digits. -/
def widths : List (Char × Nat) :=
  [('x', 2), ('u', 4), ('U', 8)]

/-- The first character of what stands between quotes, and the rest. -/
def unescape : List Char → Option (Char × List Char)
  | [] => none
  | c :: rest =>
    if c = '\\' then
      rest.head?.bind fun mark =>
        match widths.lookup mark with
        | some width =>
          some (.ofNat (hexValue (rest.tail.take width)), rest.tail.drop width)
        | none => (marked.lookup mark).map (·, rest.tail)
    else some (c, rest)

theorem unescape_hex (c : Char) (rest : List Char) {opening : String} {mark : Char} {width : Nat}
    (opens : opening.toList = ['\\', mark]) (isMark : widths.lookup mark = some width)
    (length : (hex width c.toNat).toList.length = width) :
    unescape (opening.toList ++ ((hex width c.toNat).toList ++ rest)) = some (c, rest) := by
  rw [opens, List.cons_append, List.cons_append, List.nil_append]
  simp only [unescape, if_pos, List.head?_cons, Option.bind_some, isMark, List.tail_cons]
  rw [List.take_left' length, List.drop_left' length, hexValue_hex, Char.ofNat_toNat]

theorem unescape_plain {c : Char} (noBackslash : c ≠ '\\') (rest : List Char) :
    unescape (c :: rest) = some (c, rest) := by
  rw [unescape, if_neg noBackslash]

/-- An escaped character can be read, whatever follows it. -/
theorem unescape_escape (c : Char) (rest : List Char) :
    unescape ((escape c).toList ++ rest) = some (c, rest) := by
  unfold escape
  split
  -- the characters that are marked come first
  iterate 9 rfl
  · next noBackslash _ _ _ _ _ _ _ =>
    by_cases printable : Printable.isPrintable c
    · rw [if_pos printable]
      simpa [Char.toString] using unescape_plain noBackslash rest
    rw [if_neg printable]
    -- the wider the number, the more digits
    by_cases ascii : c.toNat < 0x80
    · have fits : c.toNat < 16 ^ 2 := Nat.lt_trans ascii (by decide)
      rw [if_pos ascii, String.toList_append, List.append_assoc]
      exact unescape_hex c rest rfl rfl (Script.hex_spec (by decide) fits).1
    rw [if_neg ascii]
    by_cases short : c.toNat < 0x10000
    · rw [if_pos short, String.toList_append, List.append_assoc]
      exact unescape_hex c rest rfl rfl (Script.hex_spec (by decide) short).1
    · have fits : c.toNat < 16 ^ 8 := Nat.lt_of_lt_of_le c.val.toNat_lt (by decide)
      rw [if_neg short, String.toList_append, List.append_assoc]
      exact unescape_hex c rest rfl rfl (Script.hex_spec (by decide) fits).1

/-- No character begins with a quote when it is escaped. -/
theorem escape_ne_quote (c : Char) (rest behind : List Char) :
    (escape c).toList ++ rest ≠ '"' :: behind := by
  intro same
  have read := unescape_escape c rest
  rw [same, unescape_plain (by decide)] at read
  obtain ⟨rfl, -⟩ := Prod.mk.inj (Option.some_inj.mp read)
  cases same

theorem escaped_append_injective {first second rest rest' : List Char}
    (same : (first.flatMap fun c => (escape c).toList) ++ '"' :: rest =
      (second.flatMap fun c => (escape c).toList) ++ '"' :: rest') :
    first = second ∧ rest = rest' := by
  induction first generalizing second with
  | nil =>
    cases second with
    | nil => exact ⟨rfl, (List.cons.inj same).2⟩
    | cons d second =>
      rw [List.flatMap_cons, List.append_assoc] at same
      exact absurd same.symm (escape_ne_quote d _ _)
  | cons c first ih =>
    cases second with
    | nil =>
      rw [List.flatMap_cons, List.append_assoc] at same
      exact absurd same (escape_ne_quote c _ _)
    | cons d second =>
      rw [List.flatMap_cons, List.flatMap_cons, List.append_assoc, List.append_assoc] at same
      have read := congrArg unescape same
      rw [unescape_escape, unescape_escape] at read
      obtain ⟨rfl, behind⟩ := Prod.mk.inj (Option.some_inj.mp read)
      obtain ⟨rfl, others⟩ := ih behind
      exact ⟨rfl, others⟩

theorem toList_quote_append (text : String) (rest : List Char) :
    (quote text).toList ++ rest =
      '"' :: ((text.toList.flatMap fun c => (escape c).toList) ++ '"' :: rest) := by
  simp [quote, String.toList_join, List.flatMap_map]

/-- A quoted text stands for one text and ends where it ends. -/
theorem quote_append_injective {first second : String} {rest rest' : List Char}
    (same : (quote first).toList ++ rest = (quote second).toList ++ rest') :
    first = second ∧ rest = rest' := by
  rw [toList_quote_append, toList_quote_append] at same
  obtain ⟨texts, others⟩ := escaped_append_injective (List.cons.inj same).2
  exact ⟨String.toList_inj.mp texts, others⟩

end Quoted

end PascalCompiler
