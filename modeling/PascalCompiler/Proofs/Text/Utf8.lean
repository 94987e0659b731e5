import PascalCompiler.Text.Utf8

/-!
# Reading encoded text back

The encoding of a text is read back as that text, and the encoding of a character
is either its ASCII byte or made of bytes outside ASCII. From any other bytes the text
is read in which the replacement character stands for each of the bytes that belong to
no character.

## Main definitions

* `Utf8.encode`: the bytes of characters
* `Utf8.Reads`: the characters that bytes are read as

## Main results

* `Utf8.chars_encode`: the characters of encoded characters
* `Utf8.reads_chars`: what the characters of any bytes are
* `Utf8.mem_encodeChar`: which bytes a character is encoded with
* `Utf8.ofString_eq_encode`: the bytes of a text are the encodings of its characters
-/

namespace PascalCompiler

theorem Bytes.ofString_append (left right : String) :
    ofString (left ++ right) = ofString left ++ ofString right := by
  simp [ofString]

namespace Utf8

/-- The encoding of a list of characters. -/
def encode (cs : List Char) : Bytes :=
  cs.flatMap String.utf8EncodeChar

@[simp] theorem encode_cons (c : Char) (cs : List Char) :
    encode (c :: cs) = String.utf8EncodeChar c ++ encode cs := rfl

/-- A byte string that starts with an encoded character has it at its head. -/
theorem head?_encodeChar_append (c : Char) (rest : Bytes) :
    head? (String.utf8EncodeChar c ++ rest) = some c := by
  have short : (String.utf8EncodeChar c).length ≤ 4 := by
    rw [String.length_utf8EncodeChar]
    exact c.utf8Size_le_four
  rw [head?, List.take_append, List.take_of_length_le short, List.toByteArray_append]
  exact ByteArray.utf8DecodeChar?_utf8EncodeChar_append

/-- The bytes of a character read before are passed over. -/
theorem charsAfter_length_append (bytes rest : Bytes) :
    charsAfter bytes.length (bytes ++ rest) = charsAfter 0 rest := by
  induction bytes with
  | nil => rfl
  | cons b bytes ih => exact ih

theorem chars_encodeChar_append (c : Char) (rest : Bytes) :
    chars (String.utf8EncodeChar c ++ rest) = c :: chars rest := by
  have front := head?_encodeChar_append c rest
  have size := String.length_utf8EncodeChar c
  obtain ⟨b, bytes, encoded⟩ := List.exists_cons_of_ne_nil (String.utf8EncodeChar_ne_nil (c := c))
  rw [encoded] at front size ⊢
  have others : c.utf8Size - 1 = bytes.length := by
    rw [← size, List.length_cons, Nat.add_sub_cancel]
  have skipped := charsAfter_length_append bytes rest
  rw [← others] at skipped
  rw [chars, List.cons_append, charsAfter, ← List.cons_append, front]
  exact congrArg (c :: ·) skipped

/-- Encoded characters are read back. -/
theorem chars_encode (cs : List Char) : chars (encode cs) = cs := by
  induction cs with
  | nil => rfl
  | cons c cs ih => rw [encode_cons, chars_encodeChar_append, ih]

theorem decode_encode (cs : List Char) : decode (encode cs) = String.ofList cs := by
  rw [decode, chars_encode]

/-- A byte of an encoded character is the character itself or lies outside ASCII. -/
theorem mem_encodeChar {c : Char} {b : UInt8} (mem : b ∈ String.utf8EncodeChar c) :
    (c.toNat < 0x80 ∧ b.toNat = c.toNat) ∨ 0x80 ≤ b.toNat := by
  have value : c.val.toNat = c.toNat := rfl
  simp only [String.utf8EncodeChar, value] at mem
  -- one case per length of the encoding; all bytes of the longer ones are at least 0x80
  split at mem
  · left
    simp only [List.mem_singleton] at mem
    rw [mem, UInt8.toNat_ofNat']
    omega
  · right
    split at mem
    · simp only [List.mem_cons, List.not_mem_nil, or_false] at mem
      obtain rfl | rfl := mem <;> rw [UInt8.toNat_ofNat'] <;> omega
    split at mem
    · simp only [List.mem_cons, List.not_mem_nil, or_false] at mem
      obtain rfl | rfl | rfl := mem <;> rw [UInt8.toNat_ofNat'] <;> omega
    · simp only [List.mem_cons, List.not_mem_nil, or_false] at mem
      obtain rfl | rfl | rfl | rfl := mem <;> rw [UInt8.toNat_ofNat'] <;> omega

theorem encode_append (cs ds : List Char) : encode (cs ++ ds) = encode cs ++ encode ds :=
  List.flatMap_append

theorem ofString_eq_encode (text : String) : Bytes.ofString text = encode text.toList := by
  have same : Bytes.ofString (.ofList text.toList) = encode text.toList := by
    rw [Bytes.ofString, String.toByteArray_ofList, List.utf8Encode, List.data_toByteArray]
    rfl
  rwa [String.ofList_toList] at same

/-- Only the character itself has its byte in its encoding. -/
theorem eq_of_mem_encodeChar {c d : Char} {b : UInt8} (mem : b ∈ String.utf8EncodeChar c)
    (isAscii : d.toNat < 0x80) (same : b.toNat = d.toNat) : c = d := by
  rcases mem_encodeChar mem with ⟨-, isChar⟩ | isHigh
  · exact Char.toNat_inj.mp (isChar.symm.trans same)
  · omega

theorem zero_mem_encode {cs : List Char} : 0 ∈ encode cs ↔ '\x00' ∈ cs := by
  constructor
  · intro mem
    obtain ⟨c, isChar, isByte⟩ := List.mem_flatMap.mp mem
    rwa [← eq_of_mem_encodeChar (d := '\x00') isByte (by decide) rfl]
  · intro mem
    exact List.mem_flatMap.mpr ⟨'\x00', mem, by decide⟩

/-! ### Bytes that need not be text -/

/-- The characters that the bytes are read as: an encoded character as it is, and a byte that
begins none as the replacement character. -/
inductive Reads : Bytes → List Char → Prop where
  | nil : Reads [] []
  | char {rest : Bytes} {cs : List Char} (c : Char) (others : Reads rest cs) :
      Reads (String.utf8EncodeChar c ++ rest) (c :: cs)
  | invalid {byte : UInt8} {rest : Bytes} {cs : List Char}
      (none : ∀ c, ¬ String.utf8EncodeChar c <+: byte :: rest) (others : Reads rest cs) :
      Reads (byte :: rest) (replacement :: cs)

/-- A byte string starts with the encoding of the character at its head. -/
theorem exists_append_of_head? {bytes : Bytes} {c : Char} (isHead : head? bytes = some c) :
    ∃ rest, bytes = String.utf8EncodeChar c ++ rest := by
  obtain ⟨more, same⟩ := ByteArray.exists_of_utf8DecodeChar?_eq_some isHead
  have front : bytes.take 4 = String.utf8EncodeChar c ++ more.data.toList := by
    simpa using congrArg (fun array => array.data.toList) same
  refine ⟨more.data.toList ++ bytes.drop 4, ?_⟩
  rw [← List.append_assoc, ← front, List.take_append_drop]

theorem reads_chars (bytes : Bytes) : Reads bytes (chars bytes) := by
  induction length : bytes.length using Nat.strongRecOn generalizing bytes with
  | _ size ih =>
    cases bytes with
    | nil => exact .nil
    | cons byte rest =>
      cases isHead : head? (byte :: rest) with
      | none =>
        have isChars : chars (byte :: rest) = replacement :: chars rest := by
          rw [chars, charsAfter, isHead]
          rfl
        rw [isChars]
        refine .invalid (fun c start => ?_) (ih rest.length (by simp [← length]) rest rfl)
        obtain ⟨behind, same⟩ := start
        rw [← same, head?_encodeChar_append] at isHead
        cases isHead
      | some c =>
        obtain ⟨behind, same⟩ := exists_append_of_head? isHead
        have shorter : behind.length < size := by
          have nonempty : 0 < (String.utf8EncodeChar c).length :=
            List.length_pos_iff.mpr String.utf8EncodeChar_ne_nil
          rw [← length, same, List.length_append]
          omega
        rw [same, chars_encodeChar_append]
        exact .char c (ih behind.length shorter behind rfl)

end Utf8

end PascalCompiler
