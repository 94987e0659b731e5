import PascalCompiler.Proofs.Layout.Acceptance
import PascalCompiler.Proofs.Script.Scanning
import PascalCompiler.Proofs.Text.Utf8

/-!
# Texts that can be laid out

The layout works on bytes and scripts are written as texts. A byte below `0x80` in the
encoding of a text is a character of the text, so the signs that the layout knows are the
characters that look like them. A text is layable if its encoding is cut into orderly
pieces.

## Main definitions

* `Layout.Layable`: a text whose encoding is orderly
* `Layout.isOrdinary`: characters that are no signs of the layout
* `Layout.Quotable`: what can stand between double quotes

## Main results

* `Layout.layable_of_ordinary`: texts without signs are layable
* `Layout.layable_quote`, `Layout.layable_codeLiteral`: literals are layable
-/

namespace PascalCompiler

namespace Layout

open Piece Utf8

/-! ### Layable texts -/

/-- The encoding of the text is cut into orderly pieces. -/
def Layable (shape : Shape) (cs : List Char) : Prop :=
  ∃ pieces, Orderly shape pieces ∧ encode cs = pieces.flatMap bytes

/-- The characters that the layout takes for more than a part of a line. -/
def special : List Char :=
  ['\x00', '"', '\'', '(', ')', ';', '\x7b', '\x7d']

/-- Is the character neither zero nor a quote nor a sign of the layout? -/
def isOrdinary (c : Char) : Bool :=
  !special.contains c

/-- The piece of a byte that is no quote. -/
def pieceOf (byte : UInt8) : Piece :=
  if isBlank byte then .blank byte else .mark byte

section Layable

variable {shape : Shape} {cs ds : List Char}

theorem Layable.append (front : Layable shape cs) (back : Layable shape ds) :
    Layable shape (cs ++ ds) := by
  obtain ⟨first, isFirst, same⟩ := front
  obtain ⟨second, isSecond, same'⟩ := back
  exact ⟨first ++ second, isFirst.append isSecond, by
    rw [encode_append, same, same', List.flatMap_append]⟩

theorem Layable.parens (inner : Layable .phrase cs) : Layable shape ('(' :: (cs ++ [')'])) := by
  obtain ⟨pieces, orderly, same⟩ := inner
  refine ⟨_, orderly.parens, ?_⟩
  rw [encode_cons, encode_append, same, List.flatMap_cons, List.flatMap_append]
  rfl

theorem Layable.braces (inner : Layable .passage cs) :
    Layable .passage ('\x7b' :: (cs ++ ['\x7d'])) := by
  obtain ⟨pieces, orderly, same⟩ := inner
  refine ⟨_, orderly.braces, ?_⟩
  rw [encode_cons, encode_append, same, List.flatMap_cons, List.flatMap_append]
  rfl

theorem Layable.semicolon : Layable .passage [';'] :=
  ⟨_, .semicolon, rfl⟩

/-- An ordinary byte makes a piece of its own. -/
theorem orderly_pieceOf {byte : UInt8} (noQuote : isQuote byte = false)
    (isPlain : Sign.of byte = .plain) : Orderly shape [pieceOf byte] := by
  unfold pieceOf
  split
  · next blank => exact .plain (whole_blank blank) rfl
  · next noBlank =>
    exact .plain (whole_mark (by simpa using noBlank) noQuote) (by simp [isPlain, Piece.isPlain])

theorem orderly_map_pieceOf {bytes : Bytes}
    (ordinary : ∀ byte ∈ bytes, isQuote byte = false ∧ Sign.of byte = .plain) :
    Orderly shape (bytes.map pieceOf) := by
  induction bytes with
  | nil => exact .nil
  | cons byte bytes ih =>
    obtain ⟨⟨noQuote, isPlain⟩, others⟩ := List.forall_mem_cons.mp ordinary
    exact (orderly_pieceOf noQuote isPlain).append (ih others)

theorem flatMap_bytes_pieceOf (script : Bytes) :
    (script.map pieceOf).flatMap bytes = script := by
  have single : ∀ byte, (pieceOf byte).bytes = [byte] := by
    intro byte
    unfold pieceOf
    split <;> rfl
  simp [List.flatMap_map, single]

/-- The bytes of an ordinary character are neither quotes nor signs. -/
theorem ordinary_of_mem_encodeChar {c : Char} {byte : UInt8} (ordinary : isOrdinary c)
    (mem : byte ∈ String.utf8EncodeChar c) :
    isQuote byte = false ∧ Sign.of byte = .plain := by
  have other : ∀ d ∈ special, byte ≠ UInt8.ofNat d.toNat := by
    rintro d isSpecial rfl
    have isAscii : d.toNat < 0x80 := by
      have all : (special.all fun d => d.toNat < 0x80) = true := rfl
      simpa using List.all_eq_true.mp all d isSpecial
    have same : c = d := eq_of_mem_encodeChar mem isAscii (by
      rw [UInt8.toNat_ofNat']
      omega)
    rw [isOrdinary, same] at ordinary
    simp [isSpecial] at ordinary
  obtain ⟨-, double, single, openParen, closeParen, semicolon, openBrace, closeBrace⟩ :
      byte ≠ 0x00 ∧ byte ≠ 0x22 ∧ byte ≠ 0x27 ∧ byte ≠ 0x28 ∧ byte ≠ 0x29 ∧ byte ≠ 0x3B ∧
        byte ≠ 0x7B ∧ byte ≠ 0x7D := by
    simpa [special] using other
  exact ⟨by simp [isQuote, double, single],
    by simp [Sign.of, openParen, closeParen, semicolon, openBrace, closeBrace]⟩

/-- A text without signs is layable: each of its bytes is a piece. -/
theorem layable_of_ordinary (ordinary : ∀ c ∈ cs, isOrdinary c) : Layable shape cs := by
  refine ⟨(encode cs).map pieceOf, orderly_map_pieceOf fun byte mem => ?_,
    (flatMap_bytes_pieceOf _).symm⟩
  obtain ⟨c, isChar, isByte⟩ := List.mem_flatMap.mp mem
  exact ordinary_of_mem_encodeChar (ordinary c isChar) isByte

end Layable

/-! ### Literals -/

/-- The text can stand between double quotes. A backslash takes the character behind it
along. -/
inductive Quotable : List Char → Prop where
  | nil : Quotable []
  | plain {c : Char} {cs : List Char} (noQuote : c ≠ '"') (noBackslash : c ≠ '\\')
      (noFeed : c ≠ '\n') (rest : Quotable cs) : Quotable (c :: cs)
  | escaped {c : Char} {cs : List Char} (isAscii : c.toNat < 0x80) (rest : Quotable cs) :
      Quotable ('\\' :: c :: cs)

section Quotable

variable {cs : List Char}

theorem cutFrom_inside_append {bytes : Bytes}
    (plain : ∀ byte ∈ bytes, byte ≠ 0x22 ∧ byte ≠ 0x5C ∧ byte ≠ Bytes.lineFeed)
    (text rest : Bytes) :
    cutFrom (.inside 0x22 text false) (bytes ++ rest) =
      cutFrom (.inside 0x22 (bytes.reverse ++ text) false) rest := by
  induction bytes generalizing text with
  | nil => rfl
  | cons byte bytes ih =>
    obtain ⟨⟨noQuote, noBackslash, noFeed⟩, others⟩ := List.forall_mem_cons.mp plain
    rw [List.cons_append, cutFrom, if_neg noQuote, if_neg noFeed, beq_false_of_ne noBackslash,
      ih others, List.reverse_cons, List.append_assoc, List.singleton_append]

/-- Cutting is inside of the literal until the quote behind the text. -/
theorem Quotable.cutFrom_append (quotable : Quotable cs) (text rest : Bytes) :
    cutFrom (.inside 0x22 text false) (encode cs ++ rest) =
      cutFrom (.inside 0x22 ((encode cs).reverse ++ text) false) rest := by
  induction quotable generalizing text with
  | nil => rfl
  | @plain c cs noQuote noBackslash noFeed _ ih =>
    -- the bytes of a character beyond ASCII are none of the three
    have plain : ∀ byte ∈ String.utf8EncodeChar c,
        byte ≠ 0x22 ∧ byte ≠ 0x5C ∧ byte ≠ Bytes.lineFeed := by
      intro byte mem
      refine ⟨?_, ?_, ?_⟩
      · rintro rfl
        exact noQuote (eq_of_mem_encodeChar mem (by decide) rfl)
      · rintro rfl
        exact noBackslash (eq_of_mem_encodeChar mem (by decide) rfl)
      · rintro rfl
        exact noFeed (eq_of_mem_encodeChar mem (by decide) rfl)
    rw [encode_cons, List.append_assoc, cutFrom_inside_append plain, ih, List.reverse_append,
      List.append_assoc]
  | @escaped c cs isAscii _ ih =>
    obtain ⟨byte, isByte⟩ : ∃ byte, String.utf8EncodeChar c = [byte] := by
      rw [← List.length_eq_one_iff, String.length_utf8EncodeChar, Char.utf8Size_eq_one_iff]
      exact Nat.le_of_lt_succ isAscii
    have isBackslash : String.utf8EncodeChar '\\' = [0x5C] := rfl
    rw [encode_cons, encode_cons, isByte, isBackslash]
    simp [cutFrom, ih, Bytes.lineFeed]

/-- A literal is one piece, whatever follows it. -/
theorem Quotable.whole (quotable : Quotable cs) :
    (Piece.literal (encode ('"' :: (cs ++ ['"'])))).Whole := by
  have isLiteral : encode ('"' :: (cs ++ ['"'])) = 0x22 :: (encode cs ++ [0x22]) := by
    rw [encode_cons, encode_append]
    rfl
  rw [isLiteral]
  refine ⟨fun rest => ?_, 0x22 :: encode cs, 0x22, rfl, fun same => absurd same (by decide)⟩
  have cutInside := quotable.cutFrom_append [0x22] (0x22 :: rest)
  simpa [cut, bytes, cutFrom, isQuote] using cutInside

theorem layable_literal {shape : Shape} (quotable : Quotable cs) :
    Layable shape ('"' :: (cs ++ ['"'])) :=
  ⟨_, .plain quotable.whole rfl, (List.flatMap_singleton _ _).symm⟩

theorem Quotable.hex_append (quotable : Quotable cs) {digits : List Char}
    (hex : ∀ d ∈ digits, Ecma.isHexDigit d) : Quotable (digits ++ cs) := by
  induction digits with
  | nil => exact quotable
  | cons d digits ih =>
    obtain ⟨isHex, others⟩ := List.forall_mem_cons.mp hex
    refine .plain ?_ ?_ ?_ (ih others) <;> rintro rfl <;> cases isHex

theorem Quotable.escape_append (quotable : Quotable cs) (c : Char) :
    Quotable ((Script.escape c).toList ++ cs) := by
  rw [Script.escape.eq_def]
  split
  · exact .escaped (by decide) quotable
  · exact .escaped (by decide) quotable
  · exact .escaped (by decide) quotable
  · exact .escaped (by decide) quotable
  · exact .escaped (by decide) (quotable.hex_append (List.all_eq_true.mp rfl))
  · exact .escaped (by decide) (quotable.hex_append (List.all_eq_true.mp rfl))
  · next noBackslash noQuote noFeed _ _ _ =>
    rw [Char.toString, String.toList_singleton]
    exact .plain noQuote noBackslash noFeed quotable

theorem quotable_escape (cs : List Char) :
    Quotable (cs.flatMap fun c => (Script.escape c).toList) := by
  induction cs with
  | nil => exact .nil
  | cons c cs ih => exact ih.escape_append c

theorem layable_quote {shape : Shape} (text : String) :
    Layable shape (Script.quote text).toList := by
  rw [Script.toList_quote]
  exact layable_literal (quotable_escape _)

/-- A zero character is written as it is. -/
theorem zero_mem_quote {text : String} :
    '\x00' ∈ (Script.quote text).toList ↔ '\x00' ∈ text.toList := by
  have escaped : ∀ c, '\x00' ∈ (Script.escape c).toList ↔ c = '\x00' := by
    intro c
    rw [Script.escape.eq_def]
    split
    all_goals simp
    exact eq_comm
  simp [Script.toList_quote, escaped]

/-- The digits of an escape, in front of what can be quoted. -/
theorem Quotable.hex_escape (quotable : Quotable cs) {marker : Char} (isAscii : marker.toNat < 0x80)
    {digits : List Char} (hex : ∀ d ∈ digits, Ecma.isHexDigit d) :
    Quotable ('\\' :: marker :: (digits ++ cs)) :=
  .escaped isAscii (quotable.hex_append hex)

theorem zero_not_mem_hex {digits : List Char} (hex : ∀ d ∈ digits, Ecma.isHexDigit d) :
    '\x00' ∉ digits := by
  intro mem
  cases hex _ mem

/-- The digits of a code unit. -/
theorem isHexDigit_of_mem_unit {n : Nat} (fits : n < 0x10000) :
    ∀ d ∈ (Numeral.hex 4 n).toList, Ecma.isHexDigit d :=
  (Script.hex_spec (by decide : 0 < 4) fits).2

/-- The literal of a surrogate pair. -/
theorem layable_units {shape : Shape} {high low : String}
    (highHex : ∀ d ∈ high.toList, Ecma.isHexDigit d)
    (lowHex : ∀ d ∈ low.toList, Ecma.isHexDigit d) :
    Layable shape ("\"\\u" ++ high ++ "\\u" ++ low ++ "\"").toList ∧
      '\x00' ∉ ("\"\\u" ++ high ++ "\\u" ++ low ++ "\"").toList := by
  have literal : Layable shape _ := layable_literal
    ((Quotable.nil.hex_escape (by decide : 'u'.toNat < 0x80) lowHex).hex_escape
      (by decide : 'u'.toNat < 0x80) highHex)
  simpa [zero_not_mem_hex highHex, zero_not_mem_hex lowHex] using literal

theorem layable_codeLiteral {shape : Shape} {code : Nat} (isCode : code < 0x110000) :
    Layable shape (Script.codeLiteral code).toList ∧
      '\x00' ∉ (Script.codeLiteral code).toList := by
  -- the escape depends on whether the code point fits into a byte or a code unit
  by_cases isByte : code < 0x100
  · obtain ⟨-, hex⟩ := Script.hex_spec (by decide : 0 < 2) isByte
    have literal : Layable shape _ :=
      layable_literal (Quotable.nil.hex_escape (by decide : 'x'.toNat < 0x80) hex)
    rw [Script.codeLiteral, if_pos isByte]
    simpa [zero_not_mem_hex hex] using literal
  · by_cases isUnit : code < 0x10000
    · have hex := isHexDigit_of_mem_unit isUnit
      have literal : Layable shape _ :=
        layable_literal (Quotable.nil.hex_escape (by decide : 'u'.toNat < 0x80) hex)
      rw [Script.codeLiteral, if_neg isByte, if_pos isUnit]
      simpa [zero_not_mem_hex hex] using literal
    · rw [Script.codeLiteral, if_neg isByte, if_neg isUnit]
      exact layable_units (isHexDigit_of_mem_unit (Script.surrogates_lt isCode).1)
        (isHexDigit_of_mem_unit (Script.surrogates_lt isCode).2)

end Quotable

end Layout

end PascalCompiler
