/-!
# Code units of texts

Scripts see a text as a sequence of 16-bit code units. A code point below `0x10000` is a
code unit itself, and this includes the surrogates, which are no characters. A larger one
is written with a high and a low surrogate that have ten of its bits each.

The code units of a code point stand for no other one, and those of a text for no other
text: no character is a surrogate, so it is clear where each character ends.

## Main definitions

* `Utf16.Encodes`: the code units of a code point
* `Utf16.Spells`: the code units of a text

## Main results

* `Utf16.Encodes.injective`: code units stand for one code point
* `Utf16.Spells.injective`: code units stand for one text
-/

namespace PascalCompiler.Utf16

/-- The code units of a code point. -/
inductive Encodes (code : Nat) : List Nat → Prop where
  | unit (fits : code < 0x10000) : Encodes code [code]
  | pair {high low : Nat} (isHigh : 0xD800 ≤ high ∧ high < 0xDC00)
      (isLow : 0xDC00 ≤ low ∧ low < 0xE000)
      (isCode : code = 0x10000 + 0x400 * (high - 0xD800) + (low - 0xDC00)) :
      Encodes code [high, low]

/-- The code units of a text. -/
inductive Spells : List Char → List Nat → Prop where
  | nil : Spells [] []
  | cons {c : Char} {cs : List Char} {units others : List Nat} (first : Encodes c.toNat units)
      (rest : Spells cs others) : Spells (c :: cs) (units ++ others)

section Encodes

variable {code other : Nat} {units others : List Nat}

/-- Every code point has code units. -/
theorem exists_encodes (isCode : code < 0x110000) : ∃ units, Encodes code units := by
  by_cases fits : code < 0x10000
  · exact ⟨_, .unit fits⟩
  · refine ⟨[0xD800 + (code - 0x10000) / 0x400, 0xDC00 + (code - 0x10000) % 0x400],
      .pair ?_ ?_ ?_⟩ <;> omega

theorem Encodes.unique (encodes : Encodes code units) (encodes' : Encodes code others) :
    units = others := by
  cases encodes with
  | unit fits =>
    cases encodes' with
    | unit _ => rfl
    | pair _ _ isCode => omega
  | @pair high low isHigh isLow isCode =>
    cases encodes' with
    | unit fits => omega
    | @pair high' low' isHigh' isLow' isCode' =>
      have sameHigh : high = high' := by omega
      have sameLow : low = low' := by omega
      rw [sameHigh, sameLow]

/-- Code units stand for one code point. -/
theorem Encodes.injective (encodes : Encodes code units) (encodes' : Encodes other units) :
    code = other := by
  cases encodes with
  | unit _ =>
    cases encodes' with
    | unit _ => rfl
  | pair _ _ isCode =>
    cases encodes' with
    | pair _ _ isCode' => exact isCode.trans isCode'.symm

end Encodes

theorem toNat_lt (c : Char) : c.toNat < 0x110000 := by
  rcases c.valid with below | ⟨-, within⟩
  · exact Nat.lt_trans below (by decide)
  · exact within

/-- No character is a surrogate. -/
theorem toNat_not_surrogate (c : Char) : c.toNat < 0xD800 ∨ 0xE000 ≤ c.toNat := by
  rcases c.valid with below | ⟨above, -⟩
  · exact .inl below
  · exact .inr above

/-- The code units of a character are told from those behind them. -/
theorem Encodes.append_injective {c d : Char} {units units' others others' : List Nat}
    (encodes : Encodes c.toNat units) (encodes' : Encodes d.toNat units')
    (same : units ++ others = units' ++ others') : c = d ∧ others = others' := by
  have noSurrogate := toNat_not_surrogate c
  have noSurrogate' := toNat_not_surrogate d
  cases encodes with
  | unit _ =>
    cases encodes' with
    | unit _ =>
      obtain ⟨sameCode, sameRest⟩ := List.cons.inj same
      exact ⟨Char.toNat_inj.mp sameCode, sameRest⟩
    | pair isHigh _ _ =>
      -- the first unit of the second one is a surrogate
      obtain ⟨sameUnit, -⟩ := List.cons.inj same
      omega
  | pair isHigh _ isCode =>
    cases encodes' with
    | unit _ =>
      obtain ⟨sameUnit, -⟩ := List.cons.inj same
      omega
    | pair _ _ isCode' =>
      obtain ⟨sameHigh, behind⟩ := List.cons.inj same
      obtain ⟨sameLow, sameRest⟩ := List.cons.inj behind
      exact ⟨Char.toNat_inj.mp (by omega), sameRest⟩

/-- Code units stand for one text. -/
theorem Spells.injective {cs ds : List Char} {units : List Nat} (spells : Spells cs units)
    (spells' : Spells ds units) : cs = ds := by
  have nonempty : ∀ {code units}, Encodes code units → units ≠ [] := by
    intro code units encodes
    cases encodes <;> exact List.cons_ne_nil _ _
  induction spells generalizing ds with
  | nil =>
    generalize isNil : ([] : List Nat) = none at spells'
    cases spells' with
    | nil => rfl
    | cons first _ => exact absurd (List.append_eq_nil_iff.mp isNil.symm).1 (nonempty first)
  | @cons c cs units others first rest ih =>
    generalize isUnits : units ++ others = all at spells'
    cases spells' with
    | nil => exact absurd (List.append_eq_nil_iff.mp isUnits).1 (nonempty first)
    | cons first' rest' =>
      obtain ⟨rfl, rfl⟩ := first.append_injective first' isUnits
      rw [ih rest']

end PascalCompiler.Utf16
