import PascalCompiler.Proofs.Text.Utf8

/-!
# The order of texts and of their bytes

Texts are ordered by the first characters in which they differ, and byte strings by the first
bytes. Encoding keeps the order, since a longer encoding of a character starts with a greater byte
and the digits of its number stand in their order.

## Main results

* `Utf8.ofString_lt`: lesser texts have lesser bytes
-/

namespace PascalCompiler.Utf8

section Digits

variable {m n : Nat} {rest rest' : Bytes}

/-- Byte strings are ordered by the first bytes in which they differ. -/
theorem cons_ofNat_lt (small : m < 256) (small' : n < 256)
    (less : m < n ∨ m = n ∧ rest < rest') : UInt8.ofNat m :: rest < UInt8.ofNat n :: rest' := by
  rw [List.cons_lt_cons_iff, UInt8.lt_iff_toNat_lt, UInt8.toNat_ofNat_of_lt' small,
    UInt8.toNat_ofNat_of_lt' small']
  exact less.imp_right fun both => ⟨congrArg UInt8.ofNat both.1, both.2⟩

/-- The last digit to base 64 decides between numbers that agree in all others. -/
theorem last_digit_lt (less : m < n) (same : m / 64 = n / 64) :
    UInt8.ofNat (m % 64 + 128) :: rest < UInt8.ofNat (n % 64 + 128) :: rest' :=
  cons_ofNat_lt (by omega) (by omega) (.inl (by omega))

theorem last_two_digits_lt (less : m < n) (same : m / 4096 = n / 4096) :
    UInt8.ofNat (m / 64 % 64 + 128) :: UInt8.ofNat (m % 64 + 128) :: rest <
      UInt8.ofNat (n / 64 % 64 + 128) :: UInt8.ofNat (n % 64 + 128) :: rest' := by
  refine cons_ofNat_lt (by omega) (by omega) ?_
  by_cases same : m / 64 = n / 64
  · exact .inr ⟨by omega, last_digit_lt less same⟩
  · exact .inl (by omega)

theorem last_three_digits_lt (less : m < n) (same : m / 262144 = n / 262144) :
    UInt8.ofNat (m / 4096 % 64 + 128) :: UInt8.ofNat (m / 64 % 64 + 128) ::
        UInt8.ofNat (m % 64 + 128) :: rest <
      UInt8.ofNat (n / 4096 % 64 + 128) :: UInt8.ofNat (n / 64 % 64 + 128) ::
        UInt8.ofNat (n % 64 + 128) :: rest' := by
  refine cons_ofNat_lt (by omega) (by omega) ?_
  by_cases same : m / 4096 = n / 4096
  · exact .inr ⟨by omega, last_two_digits_lt less same⟩
  · exact .inl (by omega)

end Digits

/-- The bytes of a lesser character come before those of a greater one, whatever follows. -/
theorem encodeChar_append_lt {c d : Char} (less : c < d) (rest rest' : Bytes) :
    String.utf8EncodeChar c ++ rest < String.utf8EncodeChar d ++ rest' := by
  have less : c.val.toNat < d.val.toNat := less
  have valid : d.val.toNat < 0x110000 := by
    rcases d.valid with low | high
    · omega
    · exact high.2
  simp only [String.utf8EncodeChar]
  generalize c.val.toNat = m at less
  generalize d.val.toNat = n at less valid
  -- the cases are the lengths of the first encoding; the second is as long or longer
  have longer {first first' : Nat} {rest rest' : Bytes} (less : first < first')
      (small : first' < 256) : UInt8.ofNat first :: rest < UInt8.ofNat first' :: rest' :=
    cons_ofNat_lt (by omega) small (.inl less)
  split
  · repeat' split
    all_goals exact longer (by omega) (by omega)
  rw [if_neg (by omega : ¬ n ≤ 127)]
  split
  · split
    · refine cons_ofNat_lt (by omega) (by omega) ?_
      by_cases same : m / 64 = n / 64
      · exact .inr ⟨by omega, last_digit_lt less same⟩
      · exact .inl (by omega)
    split
    all_goals exact longer (by omega) (by omega)
  rw [if_neg (by omega : ¬ n ≤ 2047)]
  split
  · split
    · refine cons_ofNat_lt (by omega) (by omega) ?_
      by_cases same : m / 4096 = n / 4096
      · exact .inr ⟨by omega, last_two_digits_lt less same⟩
      · exact .inl (by omega)
    · exact longer (by omega) (by omega)
  rw [if_neg (by omega : ¬ n ≤ 65535)]
  refine cons_ofNat_lt (by omega) (by omega) ?_
  by_cases same : m / 262144 = n / 262144
  · exact .inr ⟨by omega, last_three_digits_lt less same⟩
  · exact .inl (by omega)

theorem encode_lt {cs ds : List Char} (less : cs < ds) : encode cs < encode ds := by
  induction less with
  | @nil d ds =>
    obtain ⟨b, bytes, encoded⟩ := List.exists_cons_of_ne_nil (String.utf8EncodeChar_ne_nil (c := d))
    rw [encode_cons, encoded]
    exact .nil
  | rel less => exact encodeChar_append_lt less _ _
  | cons _ ih => exact List.append_left_lt ih

/-- Lesser texts have lesser bytes. -/
theorem ofString_lt {text other : String} (less : text < other) :
    Bytes.ofString text < Bytes.ofString other := by
  rw [ofString_eq_encode, ofString_eq_encode]
  exact encode_lt less

end PascalCompiler.Utf8
