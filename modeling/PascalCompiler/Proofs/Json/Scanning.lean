import PascalCompiler.Json.Token
import PascalCompiler.Proofs.Json.Grammar
import PascalCompiler.Proofs.Text.Utf8

/-!
# Scanning what the grammar writes

The machine that cuts a text into tokens finds the words, numbers, strings and
punctuation marks that the grammar of JSON writes. A word or number is only
found when the byte behind it is read, so the machine is said to rest at an
offset when all tokens in front of it are found or can be settled there.

## Main definitions

* `Json.Reaches`: reading bytes takes the machine from one state to another
* `Json.Rests`: the machine has nothing but a token to settle
* `Json.Scans`: bytes that the machine cuts into the given tokens

## Main results

* `Json.isNumber_of_number`: the machine accepts every number
* `Json.scans_number`, `Json.scans_quoted`: numbers and strings are one token
-/

namespace PascalCompiler.Json

open Grammar

/-! ### Runs of the machine -/

theorem ofNat_ascii {c : Char} (small : c.toNat < 0x80) : Char.ofNat (ascii c).toNat = c := by
  have same : (ascii c).toNat = c.toNat := by
    rw [ascii, Nat.toUInt8, UInt8.toNat_ofNat']
    omega
  rw [same, Char.ofNat_toNat]

/-- Reading the bytes takes the machine from one state to the other. -/
def Reaches (s : Scanner) (bytes : Bytes) (s' : Scanner) : Prop :=
  bytes.foldlM Scanner.step s = some s'

section Runs

variable {s s' s'' : Scanner} {offset : Nat} {found : List Lexeme} {bytes : Bytes}

theorem Reaches.nil (s : Scanner) : Reaches s [] s := rfl

theorem Reaches.cons {b : UInt8} (first : s.step b = some s') (rest : Reaches s' bytes s'') :
    Reaches s (b :: bytes) s'' := by
  rw [Reaches, List.foldlM_cons, first]
  exact rest

theorem Reaches.append {more : Bytes} (first : Reaches s bytes s') (rest : Reaches s' more s'') :
    Reaches s (bytes ++ more) s'' := by
  rw [Reaches, List.foldlM_append, first]
  exact rest

/-- The machine between tokens. -/
def between (offset : Nat) (found : List Lexeme) : Scanner :=
  ⟨offset, .between, found⟩

/-- Once the token at hand is settled, the machine is between tokens. -/
def Rests (s : Scanner) (offset : Nat) (found : List Lexeme) : Prop :=
  s.settle? = some (between offset found)

theorem rests_between (offset : Nat) (found : List Lexeme) :
    Rests (between offset found) offset found := rfl

/-- Does the character end a word or number? -/
def isDelimiter (c : Char) : Bool :=
  c.toNat < 0x80 && !c.isLower && !Scanner.inNumber c

/-- A delimiter settles the token at hand and is read between tokens. -/
theorem Rests.step (rests : Rests s offset found) {c : Char} (delimiter : isDelimiter c) :
    s.step (ascii c) = (between offset found).begin? c := by
  simp only [isDelimiter, Bool.and_eq_true, decide_eq_true_eq, Bool.not_eq_true'] at delimiter
  obtain ⟨⟨small, notLower⟩, notNumber⟩ := delimiter
  obtain ⟨o, mode, l⟩ := s
  cases mode with
  | between =>
    rw [Option.some_inj.mp rests, Scanner.step, ofNat_ascii small]
    rfl
  -- the delimiter cannot be part of the word or number, so that is settled first
  | word start letters =>
    simp only [Scanner.step, ofNat_ascii small, notLower]
    rw [rests]
    rfl
  | number start digits =>
    simp only [Scanner.step, ofNat_ascii small, notNumber]
    rw [rests]
    rfl
  | string | escape | code => cases rests

theorem Rests.punctuation (rests : Rests s offset found) {c : Char} {token : Token}
    (delimiter : isDelimiter c) (mark : Scanner.punctuation? c = some token) :
    s.step (ascii c) = some (between (offset + 1) (⟨token, ⟨offset, offset + 1⟩⟩ :: found)) := by
  rw [rests.step delimiter, Scanner.begin?, mark]
  rfl

theorem Rests.blank (rests : Rests s offset found) {b : UInt8} (blank : Blanks [b]) :
    s.step b = some (between (offset + 1) found) := by
  obtain rfl | rfl | rfl | rfl := blank b List.mem_cons_self <;> exact rests.step (by decide)

theorem reaches_blanks (blank : Blanks bytes) (offset : Nat) (found : List Lexeme) :
    Reaches (between offset found) bytes (between (offset + bytes.length) found) := by
  induction bytes generalizing offset with
  | nil => exact .nil _
  | cons b rest ih =>
    obtain ⟨here, others⟩ := List.forall_mem_cons.mp blank
    have next := ih others (offset + 1)
    rw [Nat.add_assoc, Nat.add_comm 1] at next
    exact .cons ((rests_between offset found).blank (by simpa [Blanks] using here)) next

/-- Blanks leave the machine at rest. -/
theorem Rests.blanks (rests : Rests s offset found) (blank : Blanks bytes) :
    ∃ s', Reaches s bytes s' ∧ Rests s' (offset + bytes.length) found := by
  cases bytes with
  | nil => exact ⟨s, .nil s, rests⟩
  | cons b rest =>
    -- the first blank settles the token at hand
    obtain ⟨here, others⟩ := List.forall_mem_cons.mp blank
    refine ⟨_, .cons (rests.blank (by simpa [Blanks] using here)) (reaches_blanks others _ _), ?_⟩
    rw [Nat.add_assoc, Nat.add_comm 1]
    rfl

/-- Read between tokens, the bytes are cut into the given tokens. -/
def Scans (start : Nat) (bytes : Bytes) (lexemes : List Lexeme) : Prop :=
  ∀ found, ∃ s, Reaches (between start found) bytes s ∧
    Rests s (start + bytes.length) (lexemes.reverse ++ found)

end Runs

/-! ### Words -/

theorem scans_null (start : Nat) :
    Scans start ("null".toList.map ascii) [⟨.null, ⟨start, start + 4⟩⟩] :=
  fun _ => ⟨_, rfl, rfl⟩

theorem scans_true (start : Nat) :
    Scans start ("true".toList.map ascii) [⟨.bool true, ⟨start, start + 4⟩⟩] :=
  fun _ => ⟨_, rfl, rfl⟩

theorem scans_false (start : Nat) :
    Scans start ("false".toList.map ascii) [⟨.bool false, ⟨start, start + 5⟩⟩] :=
  fun _ => ⟨_, rfl, rfl⟩

/-! ### Numbers -/

theorem ne_of_isDigit {c d : Char} (digit : c.isDigit) (other : d.isDigit = false) : c ≠ d := by
  rintro rfl
  rw [digit] at other
  cases other

theorem isDigits_of_digits {cs : List Char} (digits : Digits cs) : isDigits cs := by
  simpa [isDigits, digits.1] using digits.2

section Span

variable {ds rest : List Char} (digits : ∀ c ∈ ds, c.isDigit)
  (stop : ∀ c ∈ rest.head?, c.isDigit = false)

include digits stop

theorem takeWhile_digits : (ds ++ rest).takeWhile Char.isDigit = ds := by
  rw [List.takeWhile_append_of_pos digits]
  cases rest with
  | nil => simp
  | cons c rest => simp [stop c rfl]

theorem dropWhile_digits : (ds ++ rest).dropWhile Char.isDigit = rest := by
  rw [List.dropWhile_append_of_pos digits]
  cases rest with
  | nil => simp
  | cons c rest => simp [stop c rfl]

end Span

theorem isExponent_of_exponent {cs : List Char} (exponent : Exponent cs) : isExponent cs := by
  cases exponent with
  | absent => rfl
  | @plain e cs letter digits =>
    obtain ⟨d, ds, rfl⟩ := List.exists_cons_of_ne_nil digits.1
    have digit := digits.2 d List.mem_cons_self
    have noSign : (d == '+' || d == '-') = false := by
      simp [ne_of_isDigit digit (by decide : '+'.isDigit = false),
        ne_of_isDigit digit (by decide : '-'.isDigit = false)]
    obtain rfl | rfl := letter <;> simp [isExponent, noSign, isDigits_of_digits digits]
  | signed letter sign digits =>
    obtain rfl | rfl := letter <;> obtain rfl | rfl := sign <;>
      simp [isExponent, isDigits_of_digits digits]

theorem exponent_head {cs : List Char} (exponent : Exponent cs) :
    ∀ c ∈ cs.head?, c.isDigit = false := by
  cases exponent with
  | absent => exact fun c mem => (nomatch mem)
  | plain letter digits | signed letter sign digits =>
    intro c mem
    obtain rfl | rfl := letter <;> cases mem <;> rfl

theorem fraction_head {fraction exponent : List Char} (hf : Fraction fraction)
    (he : Exponent exponent) : ∀ c ∈ (fraction ++ exponent).head?, c.isDigit = false := by
  cases hf with
  | absent => exact exponent_head he
  | point digits => simp

theorem isFraction_append {fraction exponent : List Char} (hf : Fraction fraction)
    (he : Exponent exponent) : isFraction (fraction ++ exponent) := by
  cases hf with
  | absent =>
    -- an exponent does not begin with a point
    have same : isFraction exponent = isExponent exponent := by
      cases he with
      | absent => rfl
      | plain letter digits | signed letter sign digits =>
        obtain rfl | rfl := letter <;> rfl
    rw [List.nil_append, same]
    exact isExponent_of_exponent he
  | point digits =>
    rw [List.cons_append, isFraction, takeWhile_digits digits.2 (exponent_head he),
      dropWhile_digits digits.2 (exponent_head he), isDigits_of_digits digits,
      isExponent_of_exponent he]
    rfl

theorem whole_digits {whole : List Char} (hw : Whole whole) :
    ∃ d ds, whole = d :: ds ∧ d.isDigit ∧ ∀ c ∈ ds, c.isDigit := by
  cases hw with
  | zero => exact ⟨'0', [], rfl, rfl, by simp⟩
  | digits first nonzero rest => exact ⟨_, _, rfl, first, rest⟩

theorem isUnsigned_append {whole fraction exponent : List Char} (hw : Whole whole)
    (hf : Fraction fraction) (he : Exponent exponent) :
    isUnsigned (whole ++ (fraction ++ exponent)) := by
  have digits : ∀ c ∈ whole, c.isDigit := by
    obtain ⟨d, ds, rfl, first, rest⟩ := whole_digits hw
    exact List.forall_mem_cons.mpr ⟨first, rest⟩
  have stop := fraction_head hf he
  rw [isUnsigned, takeWhile_digits digits stop, dropWhile_digits digits stop,
    isFraction_append hf he]
  cases hw with
  | zero => rfl
  | digits first nonzero rest =>
    simp [isDigits_of_digits ⟨List.cons_ne_nil _ _, digits⟩, nonzero]

theorem isNumber_of_number {cs : List Char} (number : Number cs) : isNumber cs := by
  cases number with
  | negative hw hf he => exact isUnsigned_append hw hf he
  | positive hw hf he =>
    -- a digit in front is no minus sign
    have unsigned := isUnsigned_append hw hf he
    obtain ⟨d, ds, rfl, digit, -⟩ := whole_digits hw
    rw [isNumber]
    · exact unsigned
    · intro rest same
      exact ne_of_isDigit digit (by decide) (List.cons.inj same).1

theorem inNumber_of_isDigit {c : Char} (digit : c.isDigit) : Scanner.inNumber c := by
  simp [Scanner.inNumber, digit]

theorem toNat_lt_of_isDigit {c : Char} (digit : c.isDigit) : c.toNat < 0x80 := by
  simp only [Char.isDigit, Bool.and_eq_true, decide_eq_true_eq] at digit
  exact Nat.lt_of_le_of_lt (UInt32.le_iff_toNat_le.mp digit.2) (by decide)

theorem toNat_lt_of_inNumber {c : Char} (h : Scanner.inNumber c) : c.toNat < 0x80 := by
  simp only [Scanner.inNumber, Bool.or_eq_true, beq_iff_eq] at h
  obtain ((((digit | rfl) | rfl) | rfl) | rfl) | rfl := h
  · exact toNat_lt_of_isDigit digit
  all_goals decide

theorem inNumber_of_mem_parts {whole fraction exponent : List Char} (hw : Whole whole)
    (hf : Fraction fraction) (he : Exponent exponent) :
    ∀ c ∈ whole ++ (fraction ++ exponent), Scanner.inNumber c := by
  have all {cs : List Char} (digits : ∀ c ∈ cs, c.isDigit) : ∀ c ∈ cs, Scanner.inNumber c :=
    fun c mem => inNumber_of_isDigit (digits c mem)
  refine List.forall_mem_append.mpr ⟨?_, List.forall_mem_append.mpr ⟨?_, ?_⟩⟩
  · obtain ⟨d, ds, rfl, first, rest⟩ := whole_digits hw
    exact List.forall_mem_cons.mpr ⟨inNumber_of_isDigit first, all rest⟩
  · cases hf with
    | absent => simp
    | point digits => exact List.forall_mem_cons.mpr ⟨rfl, all digits.2⟩
  · cases he with
    | absent => simp
    | plain letter digits =>
      obtain rfl | rfl := letter <;> exact List.forall_mem_cons.mpr ⟨rfl, all digits.2⟩
    | signed letter sign digits =>
      obtain rfl | rfl := letter <;> obtain rfl | rfl := sign <;>
        exact List.forall_mem_cons.mpr ⟨rfl, List.forall_mem_cons.mpr ⟨rfl, all digits.2⟩⟩

/-- A number starts with a minus sign or a digit, and all of it can stand in a
number. -/
theorem number_cons {cs : List Char} (number : Number cs) :
    ∃ c rest, cs = c :: rest ∧ (c = '-' ∨ c.isDigit) ∧ ∀ c ∈ rest, Scanner.inNumber c := by
  cases number with
  | positive hw hf he =>
    have all := inNumber_of_mem_parts hw hf he
    obtain ⟨d, ds, rfl, digit, -⟩ := whole_digits hw
    exact ⟨d, _, rfl, .inr digit, (List.forall_mem_cons.mp all).2⟩
  | negative hw hf he => exact ⟨'-', _, rfl, .inl rfl, inNumber_of_mem_parts hw hf he⟩

theorem reaches_digits {cs : List Char} (all : ∀ c ∈ cs, Scanner.inNumber c) (offset start : Nat)
    (read : List Char) (found : List Lexeme) :
    Reaches ⟨offset, .number start read, found⟩ (cs.map ascii)
      ⟨offset + cs.length, .number start (cs.reverse ++ read), found⟩ := by
  induction cs generalizing offset read with
  | nil => exact .nil _
  | cons c rest ih =>
    obtain ⟨here, others⟩ := List.forall_mem_cons.mp all
    have first : Scanner.step ⟨offset, .number start read, found⟩ (ascii c) =
        some ⟨offset + 1, .number start (c :: read), found⟩ := by
      rw [Scanner.step, ofNat_ascii (toNat_lt_of_inNumber here)]
      exact if_pos here
    have next := ih others (offset + 1) (c :: read)
    rw [Nat.add_assoc, Nat.add_comm 1] at next
    rw [List.reverse_cons, List.append_assoc]
    exact .cons first next

theorem begin?_number {c : Char} (starts : c = '-' ∨ c.isDigit) (offset : Nat)
    (found : List Lexeme) :
    (between offset found).step (ascii c) = some ⟨offset + 1, .number offset [c], found⟩ := by
  obtain rfl | digit := starts
  · rfl
  · -- between tokens, punctuation marks, blanks and quotes are looked for first
    have noMark : Scanner.punctuation? c = none := by
      rw [Scanner.punctuation?] <;> rintro rfl <;> exact absurd digit (by decide)
    have noSpace : Scanner.isSpace c = false := by
      simp [Scanner.isSpace, ne_of_isDigit digit (by decide : ' '.isDigit = false),
        ne_of_isDigit digit (by decide : '\t'.isDigit = false),
        ne_of_isDigit digit (by decide : '\n'.isDigit = false),
        ne_of_isDigit digit (by decide : '\r'.isDigit = false)]
    have noQuote : (c == '"') = false := by
      simp [ne_of_isDigit digit (by decide : '"'.isDigit = false)]
    have starts : (c == '-' || c.isDigit) = true := by simp [digit]
    rw [Scanner.step, ofNat_ascii (toNat_lt_of_isDigit digit)]
    simp only [between, Scanner.begin?, noMark, noSpace, noQuote, starts]
    rfl

theorem settle?_number (offset start : Nat) (digits : List Char) (found : List Lexeme) :
    Scanner.settle? ⟨offset, .number start digits, found⟩ =
      (Scanner.numberToken? digits.reverse).map fun token =>
        between offset (⟨token, ⟨start, offset⟩⟩ :: found) := rfl

/-- A number is one token. -/
theorem scans_number {cs : List Char} (number : Number cs) (start : Nat) :
    Scans start (cs.map ascii) [⟨.number (String.ofList cs), ⟨start, start + cs.length⟩⟩] := by
  intro found
  obtain ⟨c, rest, rfl, starts, all⟩ := number_cons number
  refine ⟨_, .cons (begin?_number starts start found) (reaches_digits all _ _ _ _), ?_⟩
  have token : Scanner.numberToken? (c :: rest) = some (.number (String.ofList (c :: rest))) :=
    if_pos (isNumber_of_number number)
  have order : (rest.reverse ++ [c]).reverse = c :: rest := by simp
  rw [Rests, settle?_number, order, token, List.length_map, Nat.add_assoc, Nat.add_comm 1]
  rfl

/-! ### Strings -/

/-- Between quotes, the machine collects the pieces from the bytes. -/
def Collects (bytes : Bytes) (pieces : List Piece) : Prop :=
  ∀ offset start before found,
    Reaches ⟨offset, .string start before, found⟩ bytes
      ⟨offset + bytes.length, .string start (pieces.reverse ++ before), found⟩

theorem Collects.nil : Collects [] [] :=
  fun _ _ _ _ => .nil _

theorem Collects.append {bytes more : Bytes} {pieces others : List Piece}
    (first : Collects bytes pieces) (rest : Collects more others) :
    Collects (bytes ++ more) (pieces ++ others) := by
  intro offset start before found
  have next := rest (offset + bytes.length) start (pieces.reverse ++ before) found
  rw [Nat.add_assoc, ← List.length_append, ← List.append_assoc, ← List.reverse_append] at next
  exact (first offset start before found).append next

theorem ofNat_toNat_ne {b : UInt8} {c : Char} (ne : b.toNat ≠ c.toNat) :
    Char.ofNat b.toNat ≠ c := by
  rintro rfl
  have valid : b.toNat.isValidChar := .inl (Nat.lt_trans b.toNat_lt (by decide))
  rw [Char.ofNat, dif_pos valid] at ne
  exact ne (UInt32.toNat_ofNatLT ..).symm

/-- Bytes without quotes, backslashes and control characters are collected as they are. -/
theorem collects_bytes {bytes : Bytes}
    (plain : ∀ b ∈ bytes, 0x20 ≤ b.toNat ∧ b.toNat ≠ '"'.toNat ∧ b.toNat ≠ '\\'.toNat) :
    Collects bytes (bytes.map .byte) := by
  induction bytes with
  | nil => exact .nil
  | cons b rest ih =>
    obtain ⟨⟨printable, noQuote, noBackslash⟩, others⟩ := List.forall_mem_cons.mp plain
    have first : Collects [b] [.byte b] := by
      intro offset start before found
      have noControl : ¬ b < 0x20 := by
        rw [UInt8.lt_iff_toNat_lt]
        exact Nat.not_lt.mpr printable
      refine .cons ?_ (.nil _)
      simp [Scanner.step, ofNat_toNat_ne noQuote, ofNat_toNat_ne noBackslash, noControl,
        Scanner.goTo]
    exact first.append (ih others)

theorem collects_encodeChar {c : Char} (printable : 0x20 ≤ c.toNat) (noQuote : c ≠ '"')
    (noBackslash : c ≠ '\\') :
    Collects (String.utf8EncodeChar c) ((String.utf8EncodeChar c).map .byte) := by
  have ne {d : Char} (other : c ≠ d) : c.toNat ≠ d.toNat :=
    fun same => other (Char.toNat_inj.mp same)
  -- the bytes of a character beyond ASCII are large, so none of them is special
  refine collects_bytes fun b mem => ?_
  obtain ⟨-, same⟩ | high := Utf8.mem_encodeChar mem
  · rw [same]
    exact ⟨printable, ne noQuote, ne noBackslash⟩
  · have quote : '"'.toNat = 0x22 := rfl
    have backslash : '\\'.toNat = 0x5C := rfl
    omega

theorem collects_letter {letter c : Char} (escape : (letter, c) ∈ escapes) :
    Collects [ascii '\\', ascii letter] ((String.utf8EncodeChar c).map .byte) := by
  simp only [escapes, List.mem_cons, Prod.mk.injEq, List.not_mem_nil, or_false] at escape
  intro offset start before found
  obtain ⟨rfl, rfl⟩ | ⟨rfl, rfl⟩ | ⟨rfl, rfl⟩ | ⟨rfl, rfl⟩ | ⟨rfl, rfl⟩ | ⟨rfl, rfl⟩ | ⟨rfl, rfl⟩ |
    ⟨rfl, rfl⟩ := escape <;> rfl

theorem hexDigit?_of_hex {c : Char} {value : Nat} (hex : Hex c value) :
    hexDigit? c = some value ∧ c.toNat < 0x80 := by
  have lower : ∀ v : Fin 16, hexDigit? (Nat.digitChar v) = some v.val ∧
      (Nat.digitChar v).toNat < 0x80 := by decide
  have upper : ∀ v : Fin 16, hexDigit? (Nat.digitChar v).toUpper = some v.val ∧
      (Nat.digitChar v).toUpper.toNat < 0x80 := by decide
  obtain ⟨small, rfl | rfl⟩ := hex
  · exact lower ⟨value, small⟩
  · exact upper ⟨value, small⟩

theorem step_code {c : Char} {v : Nat} (hex : Hex c v) (offset start : Nat) (pieces : List Piece)
    (digits value : Nat) (found : List Lexeme) :
    Scanner.step ⟨offset, .code start pieces digits value, found⟩ (ascii c) =
      some ⟨offset + 1, if digits ≤ 1 then .string start (.unit (value * 16 + v) :: pieces)
        else .code start pieces (digits - 1) (value * 16 + v), found⟩ := by
  obtain ⟨digit, small⟩ := hexDigit?_of_hex hex
  simp only [Scanner.step, ofNat_ascii small, digit, Option.map_some, Scanner.goTo]
  split <;> rfl

/-- A character by its number is one piece. -/
theorem collects_code {digits : Bytes} {n : Nat} (hex : Hex4 digits n) :
    Collects (ascii '\\' :: ascii 'u' :: digits) [.unit n] := by
  intro offset start before found
  obtain ⟨h₁, h₂, h₃, h₄⟩ := hex
  have first := step_code h₁ (offset + 2) start before 4 0 found
  rw [Nat.zero_mul, Nat.zero_add] at first
  exact .cons rfl <| .cons rfl <| .cons first <| .cons (step_code h₂ ..) <|
    .cons (step_code h₃ ..) <| .cons (step_code h₄ ..) <| .nil _

theorem pieceBytes_map_byte_append (bytes : Bytes) (rest : List Piece) :
    pieceBytes (bytes.map .byte ++ rest) = bytes ++ pieceBytes rest := by
  induction bytes with
  | nil => rfl
  | cons b bytes ih =>
    rw [List.map_cons, List.cons_append, pieceBytes, ih]
    rfl

theorem pieceBytes_unit {n : Nat} (single : n < 0xD800 ∨ 0xE000 ≤ n) (rest : List Piece) :
    pieceBytes (.unit n :: rest) = String.utf8EncodeChar (Char.ofNat n) ++ pieceBytes rest := by
  have notHigh : isHigh n = false := by simp [isHigh]; omega
  have notLow : isLow n = false := by simp [isLow]; omega
  have alone : unitChar n = Char.ofNat n := by simp [unitChar, notHigh, notLow]
  cases rest with
  | nil => simp [pieceBytes, alone]
  | cons piece rest => cases piece <;> simp [pieceBytes, alone, notHigh]

theorem pieceBytes_pair {high low : Nat} (hHigh : 0xD800 ≤ high ∧ high < 0xDC00)
    (hLow : 0xDC00 ≤ low ∧ low < 0xE000) (rest : List Piece) :
    pieceBytes (.unit high :: .unit low :: rest) =
      String.utf8EncodeChar (pairChar high low) ++ pieceBytes rest := by
  rw [pieceBytes, if_pos]
  simp [isHigh, isLow, hHigh, hLow]

/-- What stands between quotes is collected as pieces that stand for its characters. -/
theorem collects_characters {bytes : Bytes} {cs : List Char} (characters : Characters bytes cs) :
    ∃ pieces, Collects bytes pieces ∧ pieceBytes pieces = Utf8.encode cs := by
  induction characters with
  | nil => exact ⟨[], .nil, rfl⟩
  | plain printable noQuote noBackslash _ ih =>
    obtain ⟨pieces, collects, encoded⟩ := ih
    refine ⟨_, (collects_encodeChar printable noQuote noBackslash).append collects, ?_⟩
    rw [pieceBytes_map_byte_append, encoded, Utf8.encode_cons]
  | letter escape _ ih =>
    obtain ⟨pieces, collects, encoded⟩ := ih
    refine ⟨_, (collects_letter escape).append collects, ?_⟩
    rw [pieceBytes_map_byte_append, encoded, Utf8.encode_cons]
  | code hex single _ ih =>
    obtain ⟨pieces, collects, encoded⟩ := ih
    refine ⟨_, (collects_code hex).append collects, ?_⟩
    rw [List.singleton_append, pieceBytes_unit single, encoded, Utf8.encode_cons]
  | pair hexHigh hexLow high low _ ih =>
    -- two surrogates are two pieces for one character
    obtain ⟨pieces, collects, encoded⟩ := ih
    have both := (collects_code hexHigh).append ((collects_code hexLow).append collects)
    refine ⟨_, both, ?_⟩
    rw [List.singleton_append, List.singleton_append, pieceBytes_pair high low, encoded,
      Utf8.encode_cons, pairChar]

/-- A string in quotes is one token. -/
theorem scans_quoted {bytes : Bytes} {text : String} (quoted : Quoted bytes text) (start : Nat) :
    Scans start bytes [⟨.string text, ⟨start, start + bytes.length⟩⟩] := by
  intro found
  obtain ⟨characters⟩ := quoted
  rename_i bytes cs
  obtain ⟨pieces, collects, encoded⟩ := collects_characters characters
  have closing : Scanner.step
      ⟨start + 1 + bytes.length, .string start (pieces.reverse ++ []), found⟩ (ascii '"') =
      some (between (start + 1 + bytes.length + 1)
        (⟨.string (String.ofList cs), ⟨start, start + 1 + bytes.length + 1⟩⟩ :: found)) := by
    have value : pieceText (pieces.reverse ++ []).reverse = String.ofList cs := by
      rw [List.append_nil, List.reverse_reverse, pieceText, encoded, Utf8.decode_encode]
    rw [← value]
    rfl
  have run := (collects (start + 1) start [] found).append (.cons closing (.nil _))
  have opening :
      (between start found).step (ascii '"') = some ⟨start + 1, .string start [], found⟩ := rfl
  refine ⟨_, .cons opening run, ?_⟩
  have stop :
      start + (ascii '"' :: (bytes ++ [ascii '"'])).length = start + 1 + bytes.length + 1 := by
    simp only [List.length_cons, List.length_append, List.length_nil]
    omega
  rw [stop]
  rfl

end PascalCompiler.Json
