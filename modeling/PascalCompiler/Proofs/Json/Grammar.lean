import PascalCompiler.Json.Basic

/-!
# The grammar of JSON texts

Which bytes are written for a JSON value, and where in the text. Tokens may have
blanks between them, strings may have their characters as they are or escaped,
numbers have an optional fraction and exponent. Nothing here says how a text is
read.

## Main definitions

* `Json.Grammar.Number`, `Json.Grammar.Characters`: what numbers and strings are
  made of
* `Json.Grammar.Value`: the bytes of a value at an offset
* `Json.Grammar.Text`: the bytes of a whole text
* `Json.depth`: how deep arrays and objects are nested
-/

namespace PascalCompiler.Json

/-! ### Nesting -/

mutual

/-- How many arrays and objects are nested in a value, itself included. -/
def depth : Json → Nat
  | .array _ items => depthItems items + 1
  | .object _ members => depthMembers members + 1
  | .null | .bool _ | .number _ | .string .. => 0

/-- How many arrays and objects are nested in the items of an array. -/
def depthItems : List Json → Nat
  | [] => 0
  | item :: rest => max (depth item) (depthItems rest)

/-- How many arrays and objects are nested in the members of an object. -/
def depthMembers : List (String × Json) → Nat
  | [] => 0
  | (_, value) :: rest => max (depth value) (depthMembers rest)

end

namespace Grammar

/-- The byte of an ASCII character. -/
def ascii (c : Char) : UInt8 :=
  c.toNat.toUInt8

/-- Bytes that may stand between tokens: spaces, tabs, line feeds and carriage returns. -/
def Blanks (bytes : Bytes) : Prop :=
  ∀ b ∈ bytes, b = ascii ' ' ∨ b = ascii '\t' ∨ b = ascii '\n' ∨ b = ascii '\r'

/-! ### Numbers -/

/-- One or more digits. -/
def Digits (cs : List Char) : Prop :=
  cs ≠ [] ∧ ∀ c ∈ cs, c.isDigit

/-- The whole part of a number: only zero starts with the digit zero. -/
inductive Whole : List Char → Prop where
  | zero : Whole ['0']
  | digits {d : Char} {cs : List Char} (first : d.isDigit) (nonzero : d ≠ '0')
      (rest : ∀ c ∈ cs, c.isDigit) : Whole (d :: cs)

/-- The fraction of a number, which may be absent. -/
inductive Fraction : List Char → Prop where
  | absent : Fraction []
  | point {cs : List Char} (digits : Digits cs) : Fraction ('.' :: cs)

/-- The exponent of a number, which may be absent. -/
inductive Exponent : List Char → Prop where
  | absent : Exponent []
  | plain {e : Char} {cs : List Char} (letter : e = 'e' ∨ e = 'E') (digits : Digits cs) :
      Exponent (e :: cs)
  | signed {e s : Char} {cs : List Char} (letter : e = 'e' ∨ e = 'E') (sign : s = '+' ∨ s = '-')
      (digits : Digits cs) : Exponent (e :: s :: cs)

/-- A number: an optional minus sign, a whole part, a fraction and an exponent. -/
inductive Number : List Char → Prop where
  | positive {whole fraction exponent : List Char} (hw : Whole whole) (hf : Fraction fraction)
      (he : Exponent exponent) : Number (whole ++ (fraction ++ exponent))
  | negative {whole fraction exponent : List Char} (hw : Whole whole) (hf : Fraction fraction)
      (he : Exponent exponent) : Number ('-' :: (whole ++ (fraction ++ exponent)))

/-! ### Strings -/

/-- A hexadecimal digit in either case, with its value. -/
def Hex (c : Char) (value : Nat) : Prop :=
  value < 16 ∧ (c = Nat.digitChar value ∨ c = (Nat.digitChar value).toUpper)

/-- Four hexadecimal digits, with their value. -/
inductive Hex4 : Bytes → Nat → Prop where
  | mk {c₁ c₂ c₃ c₄ : Char} {v₁ v₂ v₃ v₄ : Nat} (h₁ : Hex c₁ v₁) (h₂ : Hex c₂ v₂)
      (h₃ : Hex c₃ v₃) (h₄ : Hex c₄ v₄) :
      Hex4 [ascii c₁, ascii c₂, ascii c₃, ascii c₄] (((v₁ * 16 + v₂) * 16 + v₃) * 16 + v₄)

/-- The characters that have an escape of one letter, each behind its letter. -/
def escapes : List (Char × Char) :=
  [('"', '"'), ('\\', '\\'), ('/', '/'), ('b', '\x08'), ('f', '\x0C'), ('n', '\n'), ('r', '\r'),
    ('t', '\t')]

/-- What stands between quotes, and the characters it stands for. -/
inductive Characters : Bytes → List Char → Prop where
  | nil : Characters [] []
  /-- A character as it is. -/
  | plain {c : Char} {bytes : Bytes} {cs : List Char} (printable : 0x20 ≤ c.toNat)
      (noQuote : c ≠ '"') (noBackslash : c ≠ '\\') (rest : Characters bytes cs) :
      Characters (String.utf8EncodeChar c ++ bytes) (c :: cs)
  /-- A backslash and a letter. -/
  | letter {letter c : Char} {bytes : Bytes} {cs : List Char} (escape : (letter, c) ∈ escapes)
      (rest : Characters bytes cs) : Characters (ascii '\\' :: ascii letter :: bytes) (c :: cs)
  /-- A character by its number. -/
  | code {digits bytes : Bytes} {n : Nat} {cs : List Char} (hex : Hex4 digits n)
      (single : n < 0xD800 ∨ 0xE000 ≤ n) (rest : Characters bytes cs) :
      Characters (ascii '\\' :: ascii 'u' :: (digits ++ bytes)) (Char.ofNat n :: cs)
  /-- A character by the numbers of its surrogates. -/
  | pair {first second bytes : Bytes} {high low : Nat} {cs : List Char} (hexHigh : Hex4 first high)
      (hexLow : Hex4 second low) (isHigh : 0xD800 ≤ high ∧ high < 0xDC00)
      (isLow : 0xDC00 ≤ low ∧ low < 0xE000) (rest : Characters bytes cs) :
      Characters
        (ascii '\\' :: ascii 'u' :: (first ++ ascii '\\' :: ascii 'u' :: (second ++ bytes)))
        (Char.ofNat (0x10000 + (high - 0xD800) * 0x400 + (low - 0xDC00)) :: cs)

/-- A string in quotes. -/
inductive Quoted : Bytes → String → Prop where
  | mk {bytes : Bytes} {cs : List Char} (characters : Characters bytes cs) :
      Quoted (ascii '"' :: (bytes ++ [ascii '"'])) (String.ofList cs)

/-! ### Values -/

mutual

/-- The bytes of a value that starts at the offset. -/
inductive Value : Nat → Bytes → Json → Prop where
  | null {start : Nat} : Value start ("null".toList.map ascii) .null
  | true {start : Nat} : Value start ("true".toList.map ascii) (.bool true)
  | false {start : Nat} : Value start ("false".toList.map ascii) (.bool false)
  | number {start : Nat} {cs : List Char} (number : Number cs) :
      Value start (cs.map ascii) (.number (String.ofList cs))
  | string {start : Nat} {bytes : Bytes} {text : String} (quoted : Quoted bytes text) :
      Value start bytes (.string ⟨start, start + bytes.length⟩ text)
  | array {start : Nat} {bytes : Bytes} {items : List Json}
      (inner : Items (start + 1) bytes items) :
      Value start (ascii '[' :: (bytes ++ [ascii ']']))
        (.array ⟨start, start + bytes.length + 2⟩ items)
  | object {start : Nat} {bytes : Bytes} {members : List (String × Json)}
      (inner : Members (start + 1) bytes members) :
      Value start (ascii '\x7b' :: (bytes ++ [ascii '\x7d']))
        (.object ⟨start, start + bytes.length + 2⟩ members)

/-- The bytes of a value with blanks around it. -/
inductive Padded : Nat → Bytes → Json → Prop where
  | mk {start : Nat} {before bytes after : Bytes} {json : Json} (blankBefore : Blanks before)
      (written : Value (start + before.length) bytes json) (blankAfter : Blanks after) :
      Padded start (before ++ (bytes ++ after)) json

/-- The bytes between the brackets of an array. -/
inductive Items : Nat → Bytes → List Json → Prop where
  | nil {start : Nat} {blanks : Bytes} (blank : Blanks blanks) : Items start blanks []
  | last {start : Nat} {bytes : Bytes} {item : Json} (written : Padded start bytes item) :
      Items start bytes [item]
  | cons {start : Nat} {first bytes : Bytes} {item next : Json} {rest : List Json}
      (written : Padded start first item)
      (others : Items (start + first.length + 1) bytes (next :: rest)) :
      Items start (first ++ ascii ',' :: bytes) (item :: next :: rest)

/-- The bytes of a member: a name, a colon and a value. -/
inductive Member : Nat → Bytes → String × Json → Prop where
  | mk {start : Nat} {before key after bytes : Bytes} {name : String} {json : Json}
      (blankBefore : Blanks before) (quoted : Quoted key name) (blankAfter : Blanks after)
      (written : Padded (start + before.length + key.length + after.length + 1) bytes json) :
      Member start (before ++ (key ++ (after ++ ascii ':' :: bytes))) (name, json)

/-- The bytes between the braces of an object. -/
inductive Members : Nat → Bytes → List (String × Json) → Prop where
  | nil {start : Nat} {blanks : Bytes} (blank : Blanks blanks) : Members start blanks []
  | last {start : Nat} {bytes : Bytes} {member : String × Json}
      (written : Member start bytes member) : Members start bytes [member]
  | cons {start : Nat} {first bytes : Bytes} {member next : String × Json}
      {rest : List (String × Json)} (written : Member start first member)
      (others : Members (start + first.length + 1) bytes (next :: rest)) :
      Members start (first ++ ascii ',' :: bytes) (member :: next :: rest)

end

/-- The bytes of a whole text. -/
def Text (bytes : Bytes) (json : Json) : Prop :=
  Padded 0 bytes json

end Grammar

end PascalCompiler.Json
