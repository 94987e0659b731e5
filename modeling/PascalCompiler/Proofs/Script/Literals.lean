import Mathlib.Data.List.Basic
import Mathlib.Data.Set.Operations
import PascalCompiler.Generation.Expr
import PascalCompiler.Proofs.Ecma.Value
import PascalCompiler.Proofs.Layout.Texts

/-!
# What the literals of scripts stand for

A text that is written as a literal comes out of it again: the string value of the literal
is the text, in code units. So different texts have different literals, and none of them
can end its literal early. The literal of a control string stands for its code point in
the same way.

## Main results

* `Script.exists_value_escaped`: the value of a text between quotes
* `Script.exists_denotes_codeLiteral`: the value of the literal of a code point
* `Script.quote_keeps_text`: literals of texts stand for the texts
* `Script.codeLiteral_keeps_code`: literals of control strings stand for their code points
-/

namespace PascalCompiler.Script

open Ecma Utf16
open Generation (controlCode)

/-! ### Texts -/

/-- A character between quotes stands for itself, whatever follows. -/
theorem exists_value_escape (c : Char) :
    ∃ units, Encodes c.toNat units ∧ ∀ {cs : List Char} {others : List Nat},
      Value '"' cs others → Value '"' ((escape c).toList ++ cs) (units ++ others) := by
  -- four characters have an escape of one letter, two separators a Unicode escape
  rw [escape.eq_def]
  split
  · exact ⟨[0x5C], .unit (by decide), .single rfl⟩
  · exact ⟨[0x22], .unit (by decide), .single rfl⟩
  · exact ⟨[0x0A], .unit (by decide), .single rfl⟩
  · exact ⟨[0x0D], .unit (by decide), .single rfl⟩
  · exact ⟨[0x2028], .unit (by decide), .unit (List.all_eq_true.mp rfl)⟩
  · exact ⟨[0x2029], .unit (by decide), .unit (List.all_eq_true.mp rfl)⟩
  · next noBackslash noQuote noFeed noReturn noLine noParagraph =>
    have noLineEnd : isLineEnd c = false := by
      simpa [isLineEnd] using ⟨noFeed, noReturn, noLine, noParagraph⟩
    obtain ⟨units, encodes⟩ := exists_encodes (toNat_lt c)
    refine ⟨units, encodes, fun rest => ?_⟩
    rw [Char.toString, String.toList_singleton]
    exact .plain noQuote noBackslash noLineEnd encodes rest

/-- The value of a text between quotes is the text. -/
theorem exists_value_escaped (text : List Char) :
    ∃ units, Spells text units ∧
      Value '"' (text.flatMap fun c => (escape c).toList) units := by
  induction text with
  | nil => exact ⟨[], .nil, .nil⟩
  | cons c text ih =>
    obtain ⟨others, spells, value⟩ := ih
    obtain ⟨units, encodes, valueOf⟩ := exists_value_escape c
    exact ⟨units ++ others, .cons encodes spells, valueOf value⟩

theorem exists_denotes_quote (text : String) :
    ∃ units, Spells text.toList units ∧ Denotes (quote text).toList units := by
  obtain ⟨units, spells, value⟩ := exists_value_escaped text.toList
  exact ⟨units, spells, toList_quote text ▸ .mk value⟩

/-- Different texts have different literals. -/
theorem quote_injective {first second : String} (same : quote first = quote second) :
    first = second := by
  obtain ⟨units, spells, denotes⟩ := exists_denotes_quote first
  obtain ⟨units', spells', denotes'⟩ := exists_denotes_quote second
  rw [same] at denotes
  obtain rfl := denotes.unique denotes'
  exact String.toList_inj.mp (spells.injective spells')

/-- What ends a line is never written as it is. -/
theorem isLineEnd_of_mem_escape {c d : Char} (mem : d ∈ (escape c).toList) :
    isLineEnd d = false := by
  have none : (escape c).toList.all (fun d => !isLineEnd d) = true := by
    rw [escape.eq_def]
    split
    iterate 6 rfl
    · next noBackslash noQuote noFeed noReturn noLine noParagraph =>
      simpa [isLineEnd] using ⟨noFeed, noReturn, noLine, noParagraph⟩
  simpa using List.all_eq_true.mp none d mem

/-! ### Control strings -/

/-- The control strings are those of code points. -/
theorem controlCode_eq_ok_iff {n : Int} {code : Nat} :
    controlCode n = .ok code ↔ 0 ≤ n ∧ n ≤ 0x10FFFF ∧ (code : Int) = n := by
  unfold controlCode
  by_cases negative : n < 0
  · rw [if_pos negative]
    simp only [reduceCtorEq, false_iff]
    omega
  · rw [if_neg negative]
    by_cases beyond : 0x10FFFF < n
    · rw [if_pos beyond]
      simp only [reduceCtorEq, false_iff]
      omega
    · rw [if_neg beyond, Except.ok.injEq]
      omega

/-- Four digits name a code unit. -/
theorem value_unit {n : Nat} (fits : n < 0x10000) {cs : List Char} {others : List Nat}
    (rest : Value '"' cs others) :
    Value '"' ('\\' :: 'u' :: ((Numeral.hex 4 n).toList ++ cs)) (n :: others) := by
  obtain ⟨four, hex⟩ := hex_spec (by decide : 0 < 4) fits
  have isValue := Numeral.hexValue_hex 4 n
  generalize (Numeral.hex 4 n).toList = digits at four hex isValue
  obtain ⟨a, others, rfl⟩ := List.exists_cons_of_length_eq_add_one four
  obtain ⟨b, c, d, rfl⟩ := List.length_eq_three.mp (Nat.succ.inj four)
  rw [← isValue]
  exact .unit hex rest

theorem value_byte {n : Nat} (fits : n < 0x100) {cs : List Char} {others : List Nat}
    (rest : Value '"' cs others) :
    Value '"' ('\\' :: 'x' :: ((Numeral.hex 2 n).toList ++ cs)) (n :: others) := by
  obtain ⟨two, hex⟩ := hex_spec (by decide : 0 < 2) fits
  have isValue := Numeral.hexValue_hex 2 n
  generalize (Numeral.hex 2 n).toList = digits at two hex isValue
  obtain ⟨a, b, rfl⟩ := List.length_eq_two.mp two
  rw [← isValue]
  exact .byte (by simpa using hex) rest

/-- The surrogates of a code point have ten bits of it each. -/
theorem encodes_surrogates {code : Nat} (isCode : code < 0x110000) (isLarge : 0x10000 ≤ code) :
    Encodes code [(surrogates code).1, (surrogates code).2] := by
  refine .pair ?_ ?_ ?_ <;> simp only [surrogates] <;> omega

/-- The literal of one escape stands for what the escape stands for. -/
theorem denotes_escape {opening digits : String} {mark : Char} {units : List Nat}
    (opens : opening.toList = ['"', '\\', mark])
    (value : Value '"' ('\\' :: mark :: (digits.toList ++ [])) units) :
    Denotes (opening ++ digits ++ "\"").toList units := by
  have written : (opening ++ digits ++ "\"").toList =
      '"' :: ('\\' :: mark :: (digits.toList ++ []) ++ ['"']) := by
    simp [opens]
  rw [written]
  exact .mk value

theorem denotes_escapes {first second : String} {units : List Nat}
    (value : Value '"' ('\\' :: 'u' :: (first.toList ++ '\\' :: 'u' :: (second.toList ++ [])))
      units) : Denotes ("\"\\u" ++ first ++ "\\u" ++ second ++ "\"").toList units := by
  rw [toList_escapes]
  exact .mk value

/-- The literal of a code point stands for it. -/
theorem exists_denotes_codeLiteral {code : Nat} (isCode : code < 0x110000) :
    ∃ units, Encodes code units ∧ Denotes (codeLiteral code).toList units := by
  rw [codeLiteral]
  by_cases isByte : code < 0x100
  · rw [if_pos isByte]
    exact ⟨[code], .unit (by omega), denotes_escape rfl (value_byte isByte .nil)⟩
  rw [if_neg isByte]
  by_cases isUnit : code < 0x10000
  · rw [if_pos isUnit]
    exact ⟨[code], .unit isUnit, denotes_escape rfl (value_unit isUnit .nil)⟩
  · rw [if_neg isUnit]
    obtain ⟨high, low⟩ := surrogates_lt isCode
    exact ⟨_, encodes_surrogates isCode (Nat.le_of_not_lt isUnit),
      denotes_escapes (value_unit high (value_unit low .nil))⟩

/-! ### Literals -/

/-- The bytes of a literal are one piece, whatever bytes follow. -/
theorem cut_quote (text : String) (rest : Bytes) :
    Layout.Piece.cut (Bytes.ofString (quote text) ++ rest) =
      .literal (Bytes.ofString (quote text)) :: Layout.Piece.cut rest := by
  rw [Utf8.ofString_eq_encode, toList_quote]
  exact (Layout.quotable_escape text.toList).whole.cut_append rest

/-- The literal of a text is the literal of its bytes. -/
theorem textLiteral_ofString (text : String) : textLiteral (.ofString text) = quote text := by
  rw [textLiteral, Utf8.ofString_eq_encode, Utf8.decode_encode, String.ofList_toList]

/-- Bytes are written as a literal in double quotes. There is no quote in between that no
backslash takes along, and nothing that ends a line. Its one string value is the text that the
bytes are read as. So different texts have different literals, and scanning the literal from
its first byte ends behind its last byte, whatever follows. -/
theorem quote_keeps_text :
    (∀ bytes : Bytes, ∃ inner text units,
      (textLiteral bytes).toList = '"' :: (inner ++ ['"']) ∧
        (∀ rest, closing '"' (inner ++ '"' :: rest) = some rest) ∧
        (∀ c ∈ inner, isLineEnd c = false) ∧
        (∀ others, Value '"' inner others ↔ others = units) ∧
        Utf8.Reads bytes text ∧ Spells text units) ∧
      Set.InjOn textLiteral (Set.range Bytes.ofString) ∧
      ∀ bytes rest : Bytes, 0 ∉ bytes →
        Layout.Piece.cut (Bytes.ofString (textLiteral bytes) ++ rest) =
          .literal (Bytes.ofString (textLiteral bytes)) :: Layout.Piece.cut rest := by
  refine ⟨fun bytes => ?_, ?_, fun bytes rest _ => cut_quote _ rest⟩
  · obtain ⟨units, spells, value⟩ := exists_value_escaped (Utf8.chars bytes)
    have written := toList_quote (Utf8.decode bytes)
    rw [Utf8.decode, String.toList_ofList] at written
    refine ⟨_, Utf8.chars bytes, units, written, closing_characters (.inl rfl) value.characters,
      fun c mem => ?_, fun others => ⟨fun value' => value'.unique value, fun same => same ▸ value⟩,
      Utf8.reads_chars bytes, spells⟩
    obtain ⟨d, -, isEscape⟩ := List.mem_flatMap.mp mem
    exact isLineEnd_of_mem_escape isEscape
  · rintro _ ⟨first, rfl⟩ _ ⟨second, rfl⟩ same
    rw [textLiteral_ofString, textLiteral_ofString] at same
    rw [quote_injective same]

/-- Bytes with a quote, a backslash and a byte that belongs to no character. -/
def brokenBytes : Bytes :=
  [0x22, 0x5C, 0xFF, 0x0A]

/-- The literal of these bytes is scanned up to its own end, in front of another quote. -/
theorem quote_keeps_brokenBytes :
    0 ∉ brokenBytes ∧ textLiteral brokenBytes = "\"\\\"\\\\\uFFFD\\n\"" ∧
      Layout.Piece.cut (Bytes.ofString (textLiteral brokenBytes) ++ [0x22]) =
        .literal (Bytes.ofString (textLiteral brokenBytes)) :: Layout.Piece.cut [0x22] := by
  have nonzero : 0 ∉ brokenBytes := by decide
  obtain ⟨-, -, scans⟩ := quote_keeps_text
  exact ⟨nonzero, by decide +kernel, scans brokenBytes [0x22] nonzero⟩

/-- The numbers of control strings are the code points. The literal of one stands for its code
units: for itself below `0x10000`, also if it is a surrogate, and otherwise for the two
surrogates that stand for it. So different numbers have different literals. -/
theorem codeLiteral_keeps_code :
    (∀ n : Int, (∃ code, controlCode n = .ok code) ↔ 0 ≤ n ∧ n ≤ 0x10FFFF) ∧
      (∀ n code, controlCode n = .ok code →
        (code : Int) = n ∧ ∃ units, Encodes code units ∧ Denotes (codeLiteral code).toList units) ∧
      ∀ n n' code code', controlCode n = .ok code → controlCode n' = .ok code' →
        n ≠ n' → codeLiteral code ≠ codeLiteral code' := by
  have stands : ∀ n code, controlCode n = .ok code →
      (code : Int) = n ∧ ∃ units, Encodes code units ∧ Denotes (codeLiteral code).toList units := by
    intro n code accepted
    obtain ⟨notNegative, within, same⟩ := controlCode_eq_ok_iff.mp accepted
    exact ⟨same, exists_denotes_codeLiteral (by omega)⟩
  refine ⟨fun n => ⟨?_, ?_⟩, stands, ?_⟩
  · rintro ⟨code, accepted⟩
    obtain ⟨notNegative, within, -⟩ := controlCode_eq_ok_iff.mp accepted
    exact ⟨notNegative, within⟩
  · rintro ⟨notNegative, within⟩
    exact ⟨n.toNat, controlCode_eq_ok_iff.mpr ⟨notNegative, within, by omega⟩⟩
  · intro n n' code code' accepted accepted' differ sameLiteral
    obtain ⟨rfl, units, encodes, denotes⟩ := stands n code accepted
    obtain ⟨rfl, units', encodes', denotes'⟩ := stands n' code' accepted'
    rw [sameLiteral] at denotes
    obtain rfl := denotes.unique denotes'
    exact differ (congrArg Int.ofNat (encodes.injective encodes'))

/-- The first code point with a pair of surrogates, and the last one without. -/
theorem codeLiteral_keeps_boundary :
    controlCode 0xFFFF = .ok 0xFFFF ∧ controlCode 0x10000 = .ok 0x10000 ∧
      Denotes (codeLiteral 0xFFFF).toList [0xFFFF] ∧
      Denotes (codeLiteral 0x10000).toList [0xD800, 0xDC00] ∧
      codeLiteral 0xFFFF ≠ codeLiteral 0x10000 := by
  have accepted : controlCode 0xFFFF = .ok 0xFFFF := rfl
  have accepted' : controlCode 0x10000 = .ok 0x10000 := rfl
  obtain ⟨-, stands, differ⟩ := codeLiteral_keeps_code
  obtain ⟨-, units, encodes, denotes⟩ := stands _ _ accepted
  obtain ⟨-, units', encodes', denotes'⟩ := stands _ _ accepted'
  have isUnit : Encodes 0xFFFF [0xFFFF] := .unit (by decide)
  have isPair : Encodes 0x10000 [0xD800, 0xDC00] := .pair (by decide) (by decide) rfl
  exact ⟨accepted, accepted', encodes.unique isUnit ▸ denotes, encodes'.unique isPair ▸ denotes',
    differ _ _ _ _ accepted accepted' (by decide)⟩

end PascalCompiler.Script
