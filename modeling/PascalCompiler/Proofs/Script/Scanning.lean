import PascalCompiler.Script.Printer
import PascalCompiler.Proofs.Ecma.Grammar
import PascalCompiler.Proofs.Ecma.Tokens

/-!
# The tokens of scripts

The text of a script is cut into the tokens that its tree suggests: nothing that
is written next to each other grows together.

## Main definitions

* `Script.Expr.Valid`, `Script.Stmt.Valid`, `Script.Stmt.ValidElement`: trees of scripts whose
  text is a program
* `Script.Expr.tokens`, `Script.Stmt.tokens`: the tokens of a tree

## Main results

* `Script.Expr.Valid.scans`: the text of an expression has its tokens
* `Script.Stmt.Valid.stands`, `Script.Stmt.ValidElement.stands`: the text of a statement or
  function has its tokens
-/

namespace PascalCompiler.Script

open Ecma

/-! ### Valid trees -/

/-- The names in an expression are of the given kind, and code points are not too
large. -/
inductive Expr.Valid (named : String → Prop) : Expr → Prop where
  | text (value : String) : Valid named (.text value)
  | code {number : Nat} (isCode : number < 0x110000) : Valid named (.code number)
  | integer (value : Int) : Valid named (.integer value)
  | name {name : String} (isName : named name) : Valid named (.name name)
  | call {callee : String} {args : List Expr} (isName : named callee)
      (each : ∀ arg ∈ args, Valid named arg) : Valid named (.call callee args)
  | parens {inner : Expr} (valid : Valid named inner) : Valid named (.parens inner)
  | binary {op : Operator} {left right : Expr} (first : Valid named left)
      (second : Valid named right) : Valid named (.binary op left right)
  | array {elements : List Expr} (each : ∀ element ∈ elements, Valid named element) :
      Valid named (.array elements)

/-- Is this one statement, and not a row of statements without braces? -/
def Stmt.isSingle : Stmt → Bool
  | .block false _ => false
  | _ => true

/-- The names in a statement are of the given kind, no declaration is without
names, a branch is one statement, and there are no functions inside. -/
inductive Stmt.Valid (named : String → Prop) : Stmt → Prop where
  | empty : Valid named .empty
  | declare {names : List String} (nonempty : names ≠ []) (each : ∀ name ∈ names, named name) :
      Valid named (.declare names)
  | define {name : String} {value : Expr} (isName : named name) (valid : value.Valid named) :
      Valid named (.define name value)
  | assign {name : String} {value : Expr} (isName : named name) (valid : value.Valid named) :
      Valid named (.assign name value)
  | call {callee : String} {args : List Expr} (isName : named callee)
      (each : ∀ arg ∈ args, arg.Valid named) : Valid named (.call callee args)
  | block {braces : Bool} {body : List Stmt} (each : ∀ s ∈ body, Valid named s) :
      Valid named (.block braces body)
  | ifThen {condition : Expr} {onTrue : Stmt} (test : condition.Valid named)
      (single : onTrue.isSingle) (valid : Valid named onTrue) :
      Valid named (.ifThen condition onTrue)
  | ifElse {condition : Expr} {onTrue onFalse : Stmt} (test : condition.Valid named)
      (single : onTrue.isSingle) (valid : Valid named onTrue) (singleElse : onFalse.isSingle)
      (otherwise : Valid named onFalse) : Valid named (.ifElse condition onTrue onFalse)
  | tryCatch {body handler : List Stmt} (each : ∀ s ∈ body, Valid named s)
      (catches : ∀ s ∈ handler, Valid named s) : Valid named (.tryCatch body handler)
  | tryFinally {body cleanup : List Stmt} (each : ∀ s ∈ body, Valid named s)
      (finishes : ∀ s ∈ cleanup, Valid named s) : Valid named (.tryFinally body cleanup)

/-- A statement, or a function with the names of its parameters in groups none of
which is empty, or several of these in a row. The body of a function is in braces. -/
inductive Stmt.ValidElement (named : String → Prop) : Stmt → Prop where
  | statement {s : Stmt} (valid : s.Valid named) : ValidElement named s
  | row {body : List Stmt} (each : ∀ s ∈ body, ValidElement named s) :
      ValidElement named (.block false body)
  | function {name : String} {params : List (List String)} {body : List Stmt}
      (isName : named name) (nonempty : [] ∉ params)
      (isParam : ∀ group ∈ params, ∀ param ∈ group, named param)
      (each : ∀ s ∈ body, ValidElement named s) :
      ValidElement named (.function name params (.block true body))

/-! ### Tokens -/

/-- The tokens of an integer. -/
def integerTokens : Int → List Token
  | .ofNat n => [.number (.ofList (Nat.toDigits 10 n))]
  | .negSucc n => [.punctuator "-", .number (.ofList (Nat.toDigits 10 (n + 1)))]

/-- The tokens in parentheses. -/
def parenthesised (tokens : List Token) : List Token :=
  .punctuator "(" :: (tokens ++ [.punctuator ")"])

/-- The tokens in braces. -/
def braced (items : List (List Token)) : List Token :=
  .punctuator "\x7b" :: (items.flatten ++ [.punctuator "\x7d"])

/-- The tokens of names with commas between them. -/
def nameTokens (names : List String) : List Token :=
  separated (names.map fun name => [.identifier name])

namespace Expr

mutual

/-- The tokens of an expression. -/
def tokens : Expr → List Token
  | .text value => [.text (quote value)]
  | .code number => [.text (codeLiteral number)]
  | .integer value => integerTokens value
  | .name word => [.identifier word]
  | .call callee args => .identifier callee :: parenthesised (separated (tokensAll args))
  | .parens inner => parenthesised (tokens inner)
  | .binary op left right => tokens left ++ .punctuator op.spelling :: tokens right
  | .array elements =>
    .punctuator "[" :: (separated (tokensAll elements) ++ [.punctuator "]"])

/-- The tokens of a list of expressions, by expression. -/
def tokensAll : List Expr → List (List Token)
  | [] => []
  | e :: rest => tokens e :: tokensAll rest

end

theorem tokensAll_eq (list : List Expr) : tokensAll list = list.map tokens := by
  induction list with
  | nil => rfl
  | cons e rest ih => rw [tokensAll, ih, List.map_cons]

theorem forall_mem_tokensAll {p : List Token → Prop} {list : List Expr} :
    (∀ item ∈ tokensAll list, p item) ↔ ∀ e ∈ list, p e.tokens := by
  rw [tokensAll_eq, List.forall_mem_map]

end Expr

namespace Stmt

mutual

/-- The tokens of a statement or function. -/
def tokens : Stmt → List Token
  | .empty => [.punctuator ";"]
  | .declare names => .keyword "var" :: (nameTokens names ++ [.punctuator ";"])
  | .define name value =>
    .keyword "var" :: .identifier name :: .punctuator "=" :: (value.tokens ++ [.punctuator ";"])
  | .assign name value =>
    .identifier name :: .punctuator "=" :: (value.tokens ++ [.punctuator ";"])
  | .call callee args =>
    .identifier callee :: (parenthesised (separated (Expr.tokensAll args)) ++ [.punctuator ";"])
  | .block true body => braced (tokensAll body)
  | .block false body => (tokensAll body).flatten
  | .ifThen condition onTrue =>
    .keyword "if" :: (parenthesised condition.tokens ++ tokens onTrue)
  | .ifElse condition onTrue onFalse =>
    .keyword "if" ::
      (parenthesised condition.tokens ++ (tokens onTrue ++ .keyword "else" :: tokens onFalse))
  | .tryCatch body handler =>
    .keyword "try" :: (braced (tokensAll body) ++ .keyword "catch" ::
      (parenthesised [.identifier "$e"] ++ braced (tokensAll handler)))
  | .tryFinally body cleanup =>
    .keyword "try" ::
      (braced (tokensAll body) ++ .keyword "finally" :: braced (tokensAll cleanup))
  | .function name params body =>
    .keyword "function" :: .identifier name ::
      (parenthesised (nameTokens params.flatten) ++ tokens body)

/-- The tokens of a list of statements, by statement. -/
def tokensAll : List Stmt → List (List Token)
  | [] => []
  | s :: rest => tokens s :: tokensAll rest

end

theorem tokensAll_eq (list : List Stmt) : tokensAll list = list.map tokens := by
  induction list with
  | nil => rfl
  | cons s rest ih => rw [tokensAll, ih, List.map_cons]

theorem forall_mem_tokensAll {p : List Token → Prop} {list : List Stmt} :
    (∀ item ∈ tokensAll list, p item) ↔ ∀ s ∈ list, p s.tokens := by
  rw [tokensAll_eq, List.forall_mem_map]

theorem toList_printAll (list : List Stmt) :
    (printAll list).toList = list.flatMap fun s => s.print.toList := by
  induction list with
  | nil => rfl
  | cons s rest ih => rw [printAll, String.toList_append, ih, List.flatMap_cons]

end Stmt

/-! ### Names, signs and literals -/

section Pieces

variable {alphabet : Alphabet} {rest : List Char} {others : List Token}

/-- The text ends, or a character follows that belongs to no word or number. -/
def Ends (rest : List Char) : Prop :=
  ∀ c ∈ rest.head?, c ∈ [' ', '(', ')', ']', ',', ';', '+', '=', '!', '&']

/-- The text does not begin with a character that makes a longer sign of `=` or
`+`. -/
def Opens (rest : List Char) : Prop :=
  ∀ c ∈ rest.head?, c ≠ '=' ∧ c ≠ '+'

/-- A name that a script may use: a word that is not reserved. -/
structure IsName (alphabet : Alphabet) (name : String) : Prop where
  word : ∃ c cs, name.toList = c :: cs ∧ alphabet.begins c ∧ ∀ c ∈ cs, alphabet.continues c
  free : name ∉ keywords

theorem Ends.apart (ends : Ends rest) (alphabet : Alphabet) :
    ∀ c ∈ rest.head?, alphabet.continues c = false ∧ c ≠ '\\' ∧ c ≠ '.' := by
  intro c next
  have all : ([' ', '(', ')', ']', ',', ';', '+', '=', '!', '&'].all fun c =>
      !alphabet.continues c && c != '\\' && c != '.') = true := rfl
  simpa [and_assoc] using List.all_eq_true.mp all c (ends c next)

theorem begins_of_continues {c : Char} (noWord : alphabet.continues c = false) :
    alphabet.begins c = false ∧ c.isDigit = false := by
  simp only [Alphabet.continues, Bool.or_eq_false_iff] at noWord
  exact ⟨noWord.1.1, noWord.1.2⟩

theorem scan_word {word : String}
    (isWord : ∃ c cs, word.toList = c :: cs ∧ alphabet.begins c ∧ ∀ c ∈ cs, alphabet.continues c)
    (ends : Ends rest) (scanned : Tokens alphabet rest others) :
    Tokens alphabet (word.toList ++ rest) (.ofWord word :: others) := by
  obtain ⟨c, cs, same, begins, continues⟩ := isWord
  have apart : ∀ c ∈ rest.head?, alphabet.continues c = false ∧ c ≠ '\\' :=
    fun c next => ⟨(ends.apart alphabet c next).1, (ends.apart alphabet c next).2.1⟩
  have cut := Tokens.word begins continues apart scanned
  rwa [← same, String.ofList_toList] at cut

theorem scan_name {name : String} (isName : IsName alphabet name) (ends : Ends rest)
    (scanned : Tokens alphabet rest others) :
    Tokens alphabet (name.toList ++ rest) (.identifier name :: others) := by
  have cut := scan_word isName.word ends scanned
  rwa [Token.ofWord, if_neg (by simpa using isName.free)] at cut

theorem scan_keyword (word : String) (isKeyword : word ∈ keywords) (ends : Ends rest)
    (scanned : Tokens alphabet rest others) :
    Tokens alphabet (word.toList ++ rest) (.keyword word :: others) := by
  have all : ∀ word ∈ keywords, word.toList ≠ [] ∧ word.toList.all Char.isAlpha := by
    decide +kernel
  -- reserved words are made of letters, so they are words like the names
  obtain ⟨nonempty, isLetter⟩ := all word isKeyword
  obtain ⟨c, cs, same⟩ := List.exists_cons_of_ne_nil nonempty
  rw [same] at isLetter
  have letters := List.all_eq_true.mp isLetter
  have begins {c : Char} (letter : c.isAlpha) : alphabet.begins c := by
    simp [Alphabet.begins, Alphabet.isLetter, letter]
  have isWord : ∃ c cs, word.toList = c :: cs ∧ alphabet.begins c ∧
      ∀ c ∈ cs, alphabet.continues c := by
    refine ⟨c, cs, same, begins (letters c List.mem_cons_self), fun d mem => ?_⟩
    simp [Alphabet.continues, begins (letters d (List.mem_cons_of_mem _ mem))]
  have cut := scan_word isWord ends scanned
  rwa [Token.ofWord, if_pos (by simpa using isKeyword)] at cut

/-- The signs that no character makes longer. -/
def marks : List String :=
  ["(", ")", "[", "]", "\x7b", "\x7d", ",", ";", "===", "!==", "&&"]

theorem scan_mark (sign : String) (isMark : sign ∈ marks)
    (scanned : Tokens alphabet rest others) :
    Tokens alphabet (sign.toList ++ rest) (.punctuator sign :: others) := by
  have all : ∀ sign ∈ marks, sign ∈ punctuators ∧ sign.toList.head? ≠ some '.' ∧
      sign.toList.head? ≠ some '/' ∧ extensions sign = [] := by decide +kernel
  obtain ⟨isSign, noPoint, noSlash, none⟩ := all sign isMark
  refine Tokens.punctuator isSign noPoint noSlash (fun c _ => ?_) scanned
  rw [none]
  exact List.not_mem_nil

theorem scan_sign {sign : String} (isSign : sign = "=" ∨ sign = "+") (opens : Opens rest)
    (scanned : Tokens alphabet rest others) :
    Tokens alphabet (sign.toList ++ rest) (.punctuator sign :: others) := by
  have mem : sign ∈ ["=", "+"] := by simpa using isSign
  have all : ∀ sign ∈ ["=", "+"], sign ∈ punctuators ∧ sign.toList.head? ≠ some '.' ∧
      sign.toList.head? ≠ some '/' ∧ extensions sign ⊆ ['=', '+'] := by decide +kernel
  obtain ⟨isSign, noPoint, noSlash, none⟩ := all sign mem
  refine Tokens.punctuator isSign noPoint noSlash (fun c next extends' => ?_) scanned
  have either : c = '=' ∨ c = '+' := by simpa using none extends'
  exact not_or.mpr (opens c next) either

theorem scan_operator (op : Operator) (opens : Opens rest)
    (scanned : Tokens alphabet rest others) :
    Tokens alphabet (op.spelling.toList ++ rest) (.punctuator op.spelling :: others) := by
  cases op with
  | plus => exact scan_sign (.inr rfl) opens scanned
  | equal | unequal | and => exact scan_mark _ (by simp [marks, Operator.spelling]) scanned

end Pieces

section Literals

variable {alphabet : Alphabet} {rest : List Char} {others : List Token}

/-- Only zero is written with a zero in front. -/
theorem toDigits_eq_cons {n : Nat} (positive : 0 < n) :
    ∃ d ds, Nat.toDigits 10 n = d :: ds ∧ d.isDigit ∧ d ≠ '0' ∧ ∀ d ∈ ds, d.isDigit := by
  induction n using Nat.strongRecOn with
  | _ n ih =>
    by_cases small : n < 10
    · have all : ∀ n < 10, 0 < n → n.digitChar.isDigit ∧ n.digitChar ≠ '0' := by decide
      obtain ⟨digit, nonzero⟩ := all n small positive
      exact ⟨n.digitChar, [], Nat.toDigits_of_lt_base small, digit, nonzero, nofun⟩
    · -- the digits in front of the last one are those of a smaller number
      have shorter : 0 < n / 10 ∧ n / 10 < n := by omega
      obtain ⟨d, ds, same, digit, nonzero, digits⟩ := ih (n / 10) shorter.2 shorter.1
      have all : ∀ m < 10, m.digitChar.isDigit := by decide
      have last : (n % 10).digitChar.isDigit := all (n % 10) (Nat.mod_lt n (by decide))
      refine ⟨d, ds ++ [(n % 10).digitChar], ?_, digit, nonzero, ?_⟩
      · rw [Nat.toDigits_of_base_le (by decide) (Nat.le_of_not_lt small), same, List.cons_append]
      · intro e mem
        rcases List.mem_append.mp mem with before | isLast
        · exact digits e before
        · rw [List.mem_singleton.mp isLast]
          exact last

theorem whole_toDigits (n : Nat) : Json.Grammar.Whole (Nat.toDigits 10 n) := by
  cases n with
  | zero => exact .zero
  | succ n =>
    obtain ⟨d, ds, same, digit, nonzero, digits⟩ := toDigits_eq_cons n.succ_pos
    rw [same]
    exact .digits digit nonzero digits

theorem scan_numeral (n : Nat) (ends : Ends rest) (scanned : Tokens alphabet rest others) :
    Tokens alphabet (Nat.toDigits 10 n ++ rest)
      (.number (.ofList (Nat.toDigits 10 n)) :: others) := by
  refine Tokens.number (whole_toDigits n) (fun c next => ?_) scanned
  obtain ⟨noWord, -, noPoint⟩ := ends.apart alphabet c next
  obtain ⟨noLetter, noDigit⟩ := begins_of_continues noWord
  exact ⟨noLetter, noDigit, noPoint⟩

theorem scan_integer (value : Int) (ends : Ends rest) (scanned : Tokens alphabet rest others) :
    Tokens alphabet ((Numeral.decimal value).toList ++ rest) (integerTokens value ++ others) := by
  cases value with
  | ofNat n =>
    rw [Numeral.decimal, String.toList_ofList]
    exact scan_numeral n ends scanned
  | negSucc n =>
    rw [Numeral.decimal, String.toList_ofList]
    obtain ⟨d, ds, same, digit, -, -⟩ := toDigits_eq_cons n.succ_pos
    -- a digit follows the minus sign
    have apart : ∀ c ∈ (Nat.toDigits 10 (n + 1) ++ rest).head?, c ∉ extensions "-" := by
      intro c next extended
      rw [same] at next
      obtain rfl := Option.some_inj.mp next
      have all : ((extensions "-").all fun c => !c.isDigit) = true := by decide +kernel
      simpa [digit] using List.all_eq_true.mp all d extended
    exact Tokens.punctuator (by decide +kernel) (by decide) (by decide) apart
      (scan_numeral (n + 1) ends scanned)

theorem isHexDigit_of_mem_toDigits {n : Nat} {c : Char} (mem : c ∈ Nat.toDigits 16 n) :
    isHexDigit c := by
  have all : ∀ m < 16, isHexDigit m.digitChar := by decide
  induction n using Nat.strongRecOn with
  | _ n ih =>
    by_cases small : n < 16
    · rw [Nat.toDigits_of_lt_base small] at mem
      rw [List.mem_singleton.mp mem]
      exact all n small
    · rw [Nat.toDigits_of_base_le (by decide) (Nat.le_of_not_lt small)] at mem
      rcases List.mem_append.mp mem with before | last
      · exact ih (n / 16) (by omega) before
      · rw [List.mem_singleton.mp last]
        exact all (n % 16) (Nat.mod_lt n (by decide))

/-- A number that fits has exactly as many hexadecimal digits as it is padded to. -/
theorem hex_spec {width n : Nat} (positive : 0 < width) (fits : n < Nat.pow 16 width) :
    (Numeral.hex width n).toList.length = width ∧
      ∀ d ∈ (Numeral.hex width n).toList, isHexDigit d := by
  have short : (Nat.toDigits 16 n).length ≤ width :=
    (Nat.length_toDigits_le_iff (by decide) positive).mpr fits
  -- zeros in front fill up what is missing to the width
  rw [Numeral.hex, String.toList_ofList]
  constructor
  · rw [List.length_append, List.length_replicate]
    omega
  · intro d mem
    rcases List.mem_append.mp mem with zero | digit
    · rw [(List.mem_replicate.mp zero).2]
      rfl
    · exact isHexDigit_of_mem_toDigits digit

theorem unicodeEscape_hex {n : Nat} (fits : n < 0x10000) :
    UnicodeEscape ('\\' :: 'u' :: (Numeral.hex 4 n).toList) := by
  obtain ⟨four, hex⟩ := hex_spec (by decide : 0 < 4) fits
  exact .mk four hex

theorem characters_escape (c : Char) {cs : List Char} (characters : Characters '"' cs) :
    Characters '"' ((escape c).toList ++ cs) := by
  -- four characters have an escape of one letter, two separators a Unicode escape
  rw [escape.eq_def]
  split
  · exact .escaped rfl (by decide) rfl characters
  · exact .escaped rfl (by decide) rfl characters
  · exact .escaped rfl (by decide) rfl characters
  · exact .escaped rfl (by decide) rfl characters
  · exact .unit (.mk rfl (List.all_eq_true.mp rfl)) characters
  · exact .unit (.mk rfl (List.all_eq_true.mp rfl)) characters
  · next noBackslash noQuote noFeed noReturn noLine noParagraph =>
    have noLineEnd : isLineEnd c = false := by
      simpa [isLineEnd] using ⟨noFeed, noReturn, noLine, noParagraph⟩
    rw [Char.toString, String.toList_singleton]
    exact .plain noQuote noBackslash noLineEnd characters

/-- The characters of a literal, whatever text it stands for. -/
theorem characters_quote (text : List Char) :
    Characters '"' (text.flatMap fun c => (escape c).toList) := by
  induction text with
  | nil => exact .nil
  | cons c text ih =>
    rw [List.flatMap_cons]
    exact characters_escape c ih

theorem surrogates_lt {code : Nat} (isCode : code < 0x110000) :
    (surrogates code).1 < 0x10000 ∧ (surrogates code).2 < 0x10000 := by
  simp only [surrogates]
  omega

theorem toList_escapes (first second : String) :
    ("\"\\u" ++ first ++ "\\u" ++ second ++ "\"").toList =
      '"' :: ('\\' :: 'u' :: first.toList ++ ('\\' :: 'u' :: second.toList ++ []) ++ ['"']) := by
  simp

/-- The characters of the literal of a code point. -/
theorem characters_code {number : Nat} (isCode : number < 0x110000) :
    ∃ cs, Characters '"' cs ∧ (codeLiteral number).toList = '"' :: (cs ++ ['"']) := by
  -- the escape depends on whether the code point fits into a byte or a code unit
  by_cases isByte : number < 0x100
  · obtain ⟨two, hex⟩ := hex_spec (by decide : 0 < 2) isByte
    obtain ⟨a, b, same⟩ : ∃ a b, (Numeral.hex 2 number).toList = [a, b] := by
      match (Numeral.hex 2 number).toList, two with
      | [a, b], _ => exact ⟨a, b, rfl⟩
    rw [same] at hex
    have isHex : isHexDigit a ∧ isHexDigit b := by simpa using hex
    refine ⟨_, .byte isHex .nil, ?_⟩
    rw [codeLiteral, if_pos isByte]
    simp [same]
  · by_cases isUnit : number < 0x10000
    · refine ⟨_, .unit (unicodeEscape_hex isUnit) .nil, ?_⟩
      rw [codeLiteral, if_neg isByte, if_pos isUnit]
      simp
    · obtain ⟨high, low⟩ := surrogates_lt isCode
      refine ⟨_, .unit (unicodeEscape_hex high) (.unit (unicodeEscape_hex low) .nil), ?_⟩
      rw [codeLiteral, if_neg isByte, if_neg isUnit]
      exact toList_escapes _ _

theorem toList_quote (text : String) :
    (quote text).toList = '"' :: ((text.toList.flatMap fun c => (escape c).toList) ++ ['"']) := by
  simp [quote, String.toList_join, List.flatMap_map]

theorem scan_text {literal : String} {cs : List Char} (characters : Characters '"' cs)
    (same : literal.toList = '"' :: (cs ++ ['"'])) (scanned : Tokens alphabet rest others) :
    Tokens alphabet (literal.toList ++ rest) (.text literal :: others) := by
  have cut := Tokens.text characters scanned
  rwa [← same, String.ofList_toList] at cut

end Literals

/-! ### Expressions -/

section Composed

variable {alphabet : Alphabet} {rest : List Char} {others : List Token}

/-- The text has the tokens, if what follows ends a name or a number. -/
def Scans (alphabet : Alphabet) (text : List Char) (tokens : List Token) : Prop :=
  ∀ rest others, Ends rest → Tokens alphabet rest others →
    Tokens alphabet (text ++ rest) (tokens ++ others)

/-- The text has the tokens, whatever follows. -/
def Stands (alphabet : Alphabet) (text : List Char) (tokens : List Token) : Prop :=
  ∀ rest others, Tokens alphabet rest others → Tokens alphabet (text ++ rest) (tokens ++ others)

theorem ends_cons {c : Char} (ends : c ∈ [' ', '(', ')', ']', ',', ';', '+', '=', '!', '&'])
    (rest : List Char) : Ends (c :: rest) := by
  intro d next
  obtain rfl := Option.some_inj.mp next
  exact ends

/-- Items with commas between them. -/
theorem scans_separated {α : Type} {text : α → List Char} {tokens : α → List Token}
    {items : List α} (each : ∀ item ∈ items, Scans alphabet (text item) (tokens item)) :
    Scans alphabet ([','].intercalate (items.map text)) (separated (items.map tokens)) := by
  induction items with
  | nil => exact fun _ _ _ scanned => scanned
  | cons first items ih =>
    obtain ⟨here, behind⟩ := List.forall_mem_cons.mp each
    cases items with
    | nil => simpa [separated] using here
    | cons second items =>
      intro rest others ends scanned
      have comma := scan_mark "," (by decide) (ih behind rest others ends scanned)
      have all := here _ _ (ends_cons (by decide) _) comma
      simp only [List.map_cons, separated, List.intercalate_cons_cons, List.append_assoc]
      exact all

theorem scan_parenthesised {text : List Char} {tokens : List Token}
    (inner : Scans alphabet text tokens) (scanned : Tokens alphabet rest others) :
    Tokens alphabet ('(' :: (text ++ ')' :: rest)) (parenthesised tokens ++ others) := by
  have closed := scan_mark ")" (by decide) scanned
  have all := scan_mark "(" (by decide) (inner _ _ (ends_cons (by decide) _) closed)
  simp only [parenthesised, List.cons_append, List.append_assoc]
  exact all

theorem stands_flatMap {α : Type} {text : α → List Char} {tokens : α → List Token}
    {items : List α} (each : ∀ item ∈ items, Stands alphabet (text item) (tokens item)) :
    Stands alphabet (items.flatMap text) (items.map tokens).flatten := by
  induction items with
  | nil => exact fun _ _ scanned => scanned
  | cons item items ih =>
    obtain ⟨here, behind⟩ := List.forall_mem_cons.mp each
    intro rest others scanned
    rw [List.flatMap_cons, List.map_cons, List.flatten_cons, List.append_assoc, List.append_assoc]
    exact here _ _ (ih behind _ _ scanned)

theorem scan_braced {α : Type} {text : α → List Char} {tokens : α → List Token} {items : List α}
    (each : ∀ item ∈ items, Stands alphabet (text item) (tokens item))
    (scanned : Tokens alphabet rest others) :
    Tokens alphabet ('\x7b' :: (items.flatMap text ++ '\x7d' :: rest))
      (braced (items.map tokens) ++ others) := by
  have closed := scan_mark "\x7d" (by decide) scanned
  have all := scan_mark "\x7b" (by decide) (stands_flatMap each _ _ closed)
  simp only [braced, List.cons_append, List.append_assoc]
  exact all

/-- A keyword and a blank. -/
theorem scan_keyword_space (word : String) (isKeyword : word ∈ keywords)
    (scanned : Tokens alphabet rest others) :
    Tokens alphabet (word.toList ++ ' ' :: rest) (.keyword word :: others) :=
  scan_keyword word isKeyword (ends_cons (by decide) _) (.space scanned)

theorem toList_commas (texts : List String) :
    (commas texts).toList = [','].intercalate (texts.map String.toList) := by
  rw [commas, String.toList_intercalate]
  rfl

theorem scans_printAll {list : List Expr}
    (each : ∀ e ∈ list, Scans alphabet e.print.toList e.tokens) :
    Scans alphabet (commas (Expr.printAll list)).toList (separated (Expr.tokensAll list)) := by
  rw [toList_commas, Expr.printAll_eq, Expr.tokensAll_eq, List.map_map]
  exact scans_separated each

end Composed

section Expressions

variable {alphabet : Alphabet} {named : String → Prop}

theorem opens_cons {c : Char} (opens : c ≠ '=' ∧ c ≠ '+') (rest : List Char) :
    Opens (c :: rest) := by
  intro d next
  obtain rfl := Option.some_inj.mp next
  exact opens

theorem IsName.opens {name : String} (isName : IsName alphabet name) (rest : List Char) :
    Opens (name.toList ++ rest) := by
  obtain ⟨c, cs, same, begins, -⟩ := isName.word
  rw [same]
  refine opens_cons ⟨?_, ?_⟩ _
  · rintro rfl
    cases begins
  · rintro rfl
    cases begins

theorem opens_toDigits {n : Nat} (rest : List Char) : Opens (Nat.toDigits 10 n ++ rest) := by
  obtain ⟨d, ds, same, digit, -⟩ := Json.whole_digits (whole_toDigits n)
  rw [same]
  refine opens_cons ⟨?_, ?_⟩ _
  · rintro rfl
    cases digit
  · rintro rfl
    cases digit

variable (names : ∀ name, named name → IsName alphabet name)
include names

/-- No expression begins with a sign that could be part of the operator before. -/
theorem Expr.Valid.opens {e : Expr} (valid : e.Valid named) (rest : List Char) :
    Opens (e.print.toList ++ rest) := by
  induction valid generalizing rest with
  | text value =>
    rw [print, toList_quote]
    exact opens_cons (by decide) _
  | code isCode =>
    obtain ⟨cs, -, same⟩ := characters_code isCode
    rw [print, same]
    exact opens_cons (by decide) _
  | integer value =>
    rw [print]
    cases value with
    | ofNat n =>
      rw [Numeral.decimal, String.toList_ofList]
      exact opens_toDigits rest
    | negSucc n =>
      rw [Numeral.decimal, String.toList_ofList]
      exact opens_cons (by decide) _
  | name isName => exact (names _ isName).opens rest
  | call isName =>
    simp only [print, String.toList_append, List.append_assoc]
    exact (names _ isName).opens _
  | parens | array =>
    simp only [print, String.toList_append, List.append_assoc]
    exact opens_cons (by decide) _
  | binary _ _ ih =>
    simp only [print, String.toList_append, List.append_assoc]
    exact ih _

/-- The text of an expression has its tokens. -/
theorem Expr.Valid.scans {e : Expr} (valid : e.Valid named) :
    Scans alphabet e.print.toList e.tokens := by
  induction valid with
  | text value =>
    intro rest others _ scanned
    rw [print, tokens]
    exact scan_text (characters_quote value.toList) (toList_quote value) scanned
  | code isCode =>
    intro rest others _ scanned
    obtain ⟨cs, characters, same⟩ := characters_code isCode
    rw [print, tokens]
    exact scan_text characters same scanned
  | integer value =>
    intro rest others ends scanned
    rw [print, tokens]
    exact scan_integer value ends scanned
  | name isName =>
    intro rest others ends scanned
    rw [print, tokens]
    exact scan_name (names _ isName) ends scanned
  | @call callee args isName _ ih =>
    intro rest others _ scanned
    have all := scan_name (names _ isName) (ends_cons (by decide) _)
      (scan_parenthesised (scans_printAll ih) scanned)
    rw [print, tokens]
    simpa using all
  | parens _ ih =>
    intro rest others _ scanned
    rw [print, tokens]
    simpa using scan_parenthesised ih scanned
  | @binary op left right _ second ihLeft ihRight =>
    intro rest others ends scanned
    -- the operator ends the left operand, and nothing makes it longer
    have last := scan_operator op (second.opens names rest) (ihRight rest others ends scanned)
    have ends' : Ends (op.spelling.toList ++ (right.print.toList ++ rest)) := by
      cases op <;> exact ends_cons (by decide) _
    rw [print, tokens]
    simpa using ihLeft _ _ ends' last
  | @array elements _ ih =>
    intro rest others _ scanned
    have closed : Tokens alphabet (']' :: rest) _ := scan_mark "]" (by decide) scanned
    have all := scan_mark "[" (by decide)
      (scans_printAll ih _ _ (ends_cons (by decide) _) closed)
    rw [print, tokens]
    simpa using all

end Expressions

/-! ### Statements and functions -/

theorem commas_append {first second : List String} (nonempty : first ≠ [])
    (nonempty' : second ≠ []) :
    commas (first ++ second) = commas first ++ "," ++ commas second := by
  induction first with
  | nil => exact absurd rfl nonempty
  | cons text first ih =>
    cases first with
    | nil =>
      rw [List.singleton_append, commas, commas, String.intercalate_cons_of_ne_nil nonempty',
        String.intercalate_singleton]
      rfl
    | cons next first =>
      have more := ih (List.cons_ne_nil _ _)
      rw [List.cons_append, commas, commas, String.intercalate_cons_of_ne_nil (by simp),
        String.intercalate_cons_of_ne_nil (List.cons_ne_nil _ _)]
      rw [commas, commas] at more
      rw [more]
      simp only [String.append_assoc]

/-- Groups of names are written like the names in a row if none of them is empty. -/
theorem commas_flatten {groups : List (List String)} (nonempty : [] ∉ groups) :
    commas (groups.map commas) = commas groups.flatten := by
  induction groups with
  | nil => rfl
  | cons group groups ih =>
    have here : group ≠ [] := fun same => nonempty (same ▸ List.mem_cons_self)
    have behind : [] ∉ groups := fun mem => nonempty (List.mem_cons_of_mem _ mem)
    cases groups with
    | nil =>
      rw [List.map_cons, List.map_nil, List.flatten_cons, List.flatten_nil, List.append_nil]
      exact String.intercalate_singleton
    | cons second groups =>
      have next : second ≠ [] := fun same => behind (same ▸ List.mem_cons_self)
      have more : (second :: groups).flatten ≠ [] := by
        rw [List.flatten_cons]
        exact List.append_ne_nil_of_left_ne_nil next _
      rw [List.flatten_cons, commas_append here more, ← ih behind, List.map_cons, commas,
        String.intercalate_cons_of_ne_nil (by simp)]
      rfl

/-- The name of the exception that a handler catches. -/
theorem isName_exception (alphabet : Alphabet) : IsName alphabet "$e" where
  word := by
    refine ⟨'$', ['e'], rfl, rfl, fun c mem => ?_⟩
    obtain rfl := List.mem_singleton.mp mem
    rfl
  free := by decide

section Statements

variable {alphabet : Alphabet} {named : String → Prop}
  (names : ∀ name, named name → IsName alphabet name)
include names

theorem scans_names {list : List String} (each : ∀ name ∈ list, named name) :
    Scans alphabet (commas list).toList (nameTokens list) := by
  rw [toList_commas, nameTokens]
  refine scans_separated fun name mem => ?_
  exact fun _ _ ends scanned => scan_name (names name (each name mem)) ends scanned

/-- What follows the name in an assignment or definition. -/
theorem scan_value {value : Expr} (valid : value.Valid named) {rest : List Char}
    {others : List Token} (scanned : Tokens alphabet rest others) :
    Tokens alphabet ('=' :: (value.print.toList ++ ';' :: rest))
      (.punctuator "=" :: (value.tokens ++ .punctuator ";" :: others)) := by
  have last : Tokens alphabet (';' :: rest) _ := scan_mark ";" (by decide) scanned
  exact scan_sign (.inl rfl) (valid.opens names _)
    (valid.scans names _ _ (ends_cons (by decide) _) last)

/-- The text of a statement has its tokens. -/
theorem Stmt.Valid.stands {s : Stmt} (valid : s.Valid named) :
    Stands alphabet s.print.toList s.tokens := by
  induction valid with
  | empty =>
    intro rest others scanned
    rw [print, tokens]
    exact scan_mark ";" (by decide) scanned
  | @declare list _ each =>
    intro rest others scanned
    have last : Tokens alphabet (';' :: rest) _ := scan_mark ";" (by decide) scanned
    have all := scan_keyword_space "var" (by decide)
      (scans_names names each _ _ (ends_cons (by decide) _) last)
    rw [print, tokens]
    simpa using all
  | @define name value isName valid =>
    intro rest others scanned
    have all := scan_keyword_space "var" (by decide)
      (scan_name (names _ isName) (ends_cons (by decide) _) (scan_value names valid scanned))
    rw [print, tokens]
    simpa using all
  | @assign name value isName valid =>
    intro rest others scanned
    have all := scan_name (names _ isName) (ends_cons (by decide) _)
      (scan_value names valid scanned)
    rw [print, tokens]
    simpa using all
  | @call callee args isName each =>
    intro rest others scanned
    have inside := scans_printAll fun arg mem => (each arg mem).scans names
    have last : Tokens alphabet (';' :: rest) _ := scan_mark ";" (by decide) scanned
    have all := scan_name (names _ isName) (ends_cons (by decide) _)
      (scan_parenthesised inside last)
    rw [print, tokens]
    simpa using all
  | @block braces body _ ih =>
    cases braces with
    | false =>
      rw [print, tokens, tokensAll_eq, toList_printAll]
      exact stands_flatMap ih
    | true =>
      intro rest others scanned
      have all := scan_braced ih scanned
      rw [print, tokens, tokensAll_eq]
      simpa [toList_printAll] using all
  | @ifThen condition onTrue test _ _ ih =>
    intro rest others scanned
    have all := scan_keyword_space "if" (by decide)
      (scan_parenthesised (test.scans names) (.space (ih _ _ scanned)))
    rw [print, tokens]
    simpa using all
  | @ifElse condition onTrue onFalse test _ _ _ _ ih ihElse =>
    intro rest others scanned
    have last := scan_keyword_space "else" (by decide) (ihElse _ _ scanned)
    have all := scan_keyword_space "if" (by decide)
      (scan_parenthesised (test.scans names) (.space (ih _ _ (.space last))))
    rw [print, tokens]
    simpa using all
  | @tryCatch body handler _ _ ih ihHandler =>
    intro rest others scanned
    have parameter : Scans alphabet "$e".toList [.identifier "$e"] :=
      fun _ _ ends scanned => scan_name (isName_exception alphabet) ends scanned
    have last := scan_keyword_space "catch" (by decide)
      (scan_parenthesised parameter (.space (scan_braced ihHandler scanned)))
    have all := scan_keyword_space "try" (by decide) (scan_braced ih (.space last))
    rw [print, tokens, tokensAll_eq, tokensAll_eq]
    simpa [toList_printAll] using all
  | @tryFinally body cleanup _ _ ih ihCleanup =>
    intro rest others scanned
    have last := scan_keyword_space "finally" (by decide) (scan_braced ihCleanup scanned)
    have all := scan_keyword_space "try" (by decide) (scan_braced ih (.space last))
    rw [print, tokens, tokensAll_eq, tokensAll_eq]
    simpa [toList_printAll] using all

/-- The text of a statement or function has its tokens. -/
theorem Stmt.ValidElement.stands {s : Stmt} (valid : s.ValidElement named) :
    Stands alphabet s.print.toList s.tokens := by
  induction valid with
  | statement valid => exact valid.stands names
  | row _ ih =>
    rw [print, tokens, tokensAll_eq, toList_printAll]
    exact stands_flatMap ih
  | @function name params body isName nonempty isParam _ ih =>
    intro rest others scanned
    have each : ∀ param ∈ params.flatten, named param := by
      intro param mem
      obtain ⟨group, isGroup, mem⟩ := List.mem_flatten.mp mem
      exact isParam group isGroup param mem
    have all := scan_keyword_space "function" (by decide)
      (scan_name (names _ isName) (ends_cons (by decide) _)
        (scan_parenthesised (scans_names names each) (scan_braced ih scanned)))
    -- without empty groups, the names of all of them have commas between them
    rw [print, print, tokens, tokens, tokensAll_eq, commas_flatten nonempty]
    simpa [toList_printAll] using all

end Statements

end PascalCompiler.Script
