import PascalCompiler.Proofs.Json.Grammar

/-!
# The lexical grammar of ECMAScript 5

A source text is cut into input elements: blanks, comments and tokens. From left
to right, the longest possible sequence of characters is taken as the next
element. Regular expressions are left out: whether a slash begins one depends on
what stands before it, and no script has a slash outside of its strings.

Which characters beyond ASCII are letters is for the Unicode standard to say.
Nothing here depends on it, so it is a parameter.

## Main definitions

* `Ecma.Word`, `Ecma.Number`, `Ecma.Text`, `Ecma.Comment`: what elements are made of
* `Ecma.Token`, `Ecma.Element`: the elements of a source text
* `Ecma.Tokens`: the tokens of a source text
-/

namespace PascalCompiler.Ecma

open Json.Grammar (Whole Digits Exponent)

/-! ### Characters -/

/-- The characters beyond ASCII that are letters, and those that may stand in a
word without beginning it. -/
structure Alphabet where
  letter : Char → Bool
  mark : Char → Bool

/-- Does the character end a line? -/
def isLineEnd (c : Char) : Bool :=
  ['\n', '\r', '\u2028', '\u2029'].contains c

/-- Is the character white space, or does it end a line? -/
def isBlank (c : Char) : Bool :=
  isLineEnd c || ['\t', '\x0b', '\x0c', ' ', '\u00a0', '\u1680', '\u180e', '\u202f', '\u205f',
    '\u3000', '\ufeff'].contains c || (0x2000 ≤ c.toNat && c.toNat ≤ 0x200a)

/-- Is the character one that the Unicode standard has to classify? Source texts
are made of 16-bit code units. -/
def isForeign (c : Char) : Bool :=
  0x80 ≤ c.toNat && c.toNat < 0x10000 && !isBlank c

def isHexDigit (c : Char) : Bool :=
  c.isDigit || ['a', 'b', 'c', 'd', 'e', 'f', 'A', 'B', 'C', 'D', 'E', 'F'].contains c

namespace Alphabet

/-- Is the character a letter? -/
def isLetter (alphabet : Alphabet) (c : Char) : Bool :=
  c.isAlpha || (isForeign c && alphabet.letter c)

/-- May the character begin a word? -/
def begins (alphabet : Alphabet) (c : Char) : Bool :=
  alphabet.isLetter c || c = '$' || c = '_'

/-- May the character stand in a word? -/
def continues (alphabet : Alphabet) (c : Char) : Bool :=
  alphabet.begins c || c.isDigit || (isForeign c && alphabet.mark c)

end Alphabet

/-! ### Words -/

/-- The escape sequence of a code unit. -/
inductive UnicodeEscape : List Char → Prop where
  | mk {digits : List Char} (four : digits.length = 4) (hex : ∀ d ∈ digits, isHexDigit d) :
      UnicodeEscape ('\\' :: 'u' :: digits)

/-- A reserved word or the name of something. -/
inductive Word (alphabet : Alphabet) : List Char → Prop where
  | first {c : Char} (begins : alphabet.begins c) : Word alphabet [c]
  | firstEscape {cs : List Char} (escape : UnicodeEscape cs) : Word alphabet cs
  | next {cs : List Char} {c : Char} (word : Word alphabet cs) (continues : alphabet.continues c) :
      Word alphabet (cs ++ [c])
  | nextEscape {cs more : List Char} (word : Word alphabet cs) (escape : UnicodeEscape more) :
      Word alphabet (cs ++ more)

/-! ### Literals and comments -/

/-- A numeric literal. Unlike in JSON texts, there may be no digits on one side
of the point. -/
inductive Number : List Char → Prop where
  | whole {whole exponent : List Char} (isWhole : Whole whole) (isExponent : Exponent exponent) :
      Number (whole ++ exponent)
  | point {whole digits exponent : List Char} (isWhole : Whole whole)
      (isDigits : ∀ d ∈ digits, d.isDigit) (isExponent : Exponent exponent) :
      Number (whole ++ '.' :: (digits ++ exponent))
  | noWhole {digits exponent : List Char} (isDigits : Digits digits)
      (isExponent : Exponent exponent) : Number ('.' :: (digits ++ exponent))
  | hex {x : Char} {digits : List Char} (isX : x = 'x' ∨ x = 'X') (nonempty : digits ≠ [])
      (isHex : ∀ d ∈ digits, isHexDigit d) : Number ('0' :: x :: digits)

/-- The characters between the quotes of a string literal. -/
inductive Characters (quote : Char) : List Char → Prop where
  | nil : Characters quote []
  | plain {c : Char} {cs : List Char} (noQuote : c ≠ quote) (noBackslash : c ≠ '\\')
      (noLineEnd : isLineEnd c = false) (rest : Characters quote cs) : Characters quote (c :: cs)
  | escaped {c : Char} {cs : List Char} (noDigit : c.isDigit = false) (noCode : c ≠ 'x' ∧ c ≠ 'u')
      (noLineEnd : isLineEnd c = false) (rest : Characters quote cs) :
      Characters quote ('\\' :: c :: cs)
  | null {cs : List Char} (noDigit : ∀ d ∈ cs.head?, d.isDigit = false)
      (rest : Characters quote cs) : Characters quote ('\\' :: '0' :: cs)
  | byte {a b : Char} {cs : List Char} (isHex : isHexDigit a ∧ isHexDigit b)
      (rest : Characters quote cs) : Characters quote ('\\' :: 'x' :: a :: b :: cs)
  | unit {escape cs : List Char} (isEscape : UnicodeEscape escape) (rest : Characters quote cs) :
      Characters quote (escape ++ cs)
  | continued {c : Char} {cs : List Char} (isLineEnd : isLineEnd c) (rest : Characters quote cs) :
      Characters quote ('\\' :: c :: cs)
  | continuedPair {cs : List Char} (rest : Characters quote cs) :
      Characters quote ('\\' :: '\r' :: '\n' :: cs)

/-- A string literal. -/
inductive Text : List Char → Prop where
  | mk {quote : Char} {cs : List Char} (isQuote : quote = '"' ∨ quote = '\'')
      (characters : Characters quote cs) : Text (quote :: (cs ++ [quote]))

/-- A comment to the end of the line, or one between its marks. -/
inductive Comment : List Char → Prop where
  | line {cs : List Char} (inLine : ∀ c ∈ cs, isLineEnd c = false) : Comment ('/' :: '/' :: cs)
  | block {cs : List Char} (isOpen : ¬ ['*', '/'] <:+: cs) :
      Comment ('/' :: '*' :: (cs ++ ['*', '/']))

/-! ### Tokens -/

/-- The punctuators. -/
def punctuators : List String :=
  ["\x7b", "\x7d", "(", ")", "[", "]", ".", ";", ",", "<", ">", "<=", ">=", "==", "!=", "===",
    "!==", "+", "-", "*", "%", "++", "--", "<<", ">>", ">>>", "&", "|", "^", "!", "~", "&&", "||",
    "?", ":", "=", "+=", "-=", "*=", "%=", "<<=", ">>=", ">>>=", "&=", "|=", "^=", "/", "/="]

/-- The words that cannot be names: keywords, words reserved for the future, and
the literals `null`, `true` and `false`. -/
def keywords : List String :=
  ["break", "case", "catch", "continue", "debugger", "default", "delete", "do", "else", "finally",
    "for", "function", "if", "in", "instanceof", "new", "return", "switch", "this", "throw", "try",
    "typeof", "var", "void", "while", "with", "class", "const", "enum", "export", "extends",
    "import", "super", "null", "true", "false"]

/-- A token, with the characters it is made of. -/
inductive Token where
  | keyword (word : String)
  | identifier (name : String)
  | number (numeral : String)
  | text (literal : String)
  | punctuator (sign : String)
  deriving DecidableEq

/-- The token that a word is. -/
def Token.ofWord (word : String) : Token :=
  if keywords.contains word then .keyword word else .identifier word

/-- An input element, and the token it is if it is one. -/
inductive Element (alphabet : Alphabet) : List Char → Option Token → Prop where
  | blank {c : Char} (isBlank : isBlank c) : Element alphabet [c] none
  | comment {cs : List Char} (comment : Comment cs) : Element alphabet cs none
  | word {cs : List Char} (word : Word alphabet cs) :
      Element alphabet cs (some (.ofWord (.ofList cs)))
  | number {cs : List Char} (number : Number cs) :
      Element alphabet cs (some (.number (.ofList cs)))
  | text {cs : List Char} (text : Text cs) : Element alphabet cs (some (.text (.ofList cs)))
  | punctuator {sign : String} (isSign : sign ∈ punctuators) :
      Element alphabet sign.toList (some (.punctuator sign))

/-- The tokens of a source text. Each element is the longest that the rest of the
text begins with, and neither a word nor a digit directly follows a number. -/
inductive Tokens (alphabet : Alphabet) : List Char → List Token → Prop where
  | nil : Tokens alphabet [] []
  | element {cs rest : List Char} {token : Option Token} {tokens : List Token}
      (element : Element alphabet cs token)
      (longest : ∀ longer other, Element alphabet longer other → longer <+: cs ++ rest →
        longer.length ≤ cs.length)
      (apart : ∀ numeral, token = some (.number numeral) → ∀ c ∈ rest.head?,
        alphabet.begins c = false ∧ c.isDigit = false)
      (others : Tokens alphabet rest tokens) :
      Tokens alphabet (cs ++ rest) (token.toList ++ tokens)

end PascalCompiler.Ecma
