import PascalCompiler.Proofs.Ecma.Lexis
import PascalCompiler.Proofs.Json.Scanning

/-!
# The tokens of source texts

The first character of an element tells what kind of element it is, with two
exceptions: a point may begin a number, and a slash a comment. So a text is cut
into tokens in one way only, and a token can be cut off a text if the character
behind it is none that it could go on with.

## Main results

* `Ecma.Element.shape`: what the first character of an element says about it
* `Ecma.Tokens.unique`: a source text has one list of tokens at most
* `Ecma.Tokens.word`, `Ecma.Tokens.number`, `Ecma.Tokens.text`, `Ecma.Tokens.punctuator`: how
  the tokens of a text continue those of its rest
-/

namespace PascalCompiler.Ecma

open Json.Grammar (Whole)

/-! ### First characters -/

section First

variable {alphabet : Alphabet} {c : Char} {cs : List Char}

/-- The characters that punctuators begin with. -/
def signs : List Char :=
  ['\x7b', '\x7d', '(', ')', '[', ']', '.', ';', ',', '<', '>', '=', '!', '+', '-', '*', '%',
    '&', '|', '^', '~', '?', ':', '/']

theorem mem_signs_of_punctuator {sign : String} (isSign : sign ∈ punctuators)
    (first : sign.toList = c :: cs) : c ∈ signs := by
  have all : ∀ sign ∈ punctuators, sign.toList.head?.all signs.contains := by decide +kernel
  have here := all sign isSign
  rw [first] at here
  simpa using here

theorem ne_nil_of_punctuator {sign : String} (isSign : sign ∈ punctuators) : sign.toList ≠ [] := by
  have all : ∀ sign ∈ punctuators, sign.toList ≠ [] := by decide +kernel
  exact all sign isSign

theorem UnicodeEscape.mem (escape : UnicodeEscape cs) (mem : c ∈ cs) :
    alphabet.continues c ∨ c = '\\' := by
  obtain ⟨-, hex⟩ := escape
  rcases List.mem_cons.mp mem with rfl | mem
  · exact .inr rfl
  rcases List.mem_cons.mp mem with rfl | mem
  · exact .inl rfl
  · have isHex := hex c mem
    simp only [isHexDigit, Bool.or_eq_true, List.contains_iff_mem, List.mem_cons,
      List.not_mem_nil, or_false] at isHex
    rcases isHex with digit | rfl | rfl | rfl | rfl | rfl | rfl | rfl | rfl | rfl | rfl | rfl | rfl
    · exact .inl (by simp [Alphabet.continues, digit])
    all_goals exact .inl rfl

theorem Word.ne_nil (word : Word alphabet cs) : cs ≠ [] := by
  cases word with
  | first begins => exact List.cons_ne_nil _ _
  | firstEscape escape =>
    obtain ⟨-, -⟩ := escape
    exact List.cons_ne_nil _ _
  | next word continues => exact List.append_ne_nil_of_right_ne_nil _ (List.cons_ne_nil _ _)
  | nextEscape word escape =>
    obtain ⟨-, -⟩ := escape
    exact List.append_ne_nil_of_right_ne_nil _ (List.cons_ne_nil _ _)

theorem Word.mem (word : Word alphabet cs) :
    ∀ c ∈ cs, alphabet.continues c ∨ c = '\\' := by
  induction word with
  | first begins =>
    intro c mem
    obtain rfl := List.mem_singleton.mp mem
    exact .inl (by simp [Alphabet.continues, begins])
  | firstEscape escape => exact fun c mem => escape.mem mem
  | next word continues ih =>
    intro c mem
    rcases List.mem_append.mp mem with before | last
    · exact ih c before
    · obtain rfl := List.mem_singleton.mp last
      exact .inl continues
  | nextEscape word escape ih =>
    intro c mem
    rcases List.mem_append.mp mem with before | last
    · exact ih c before
    · exact escape.mem last

theorem Word.head (word : Word alphabet cs) :
    ∀ c ∈ cs.head?, alphabet.begins c ∨ c = '\\' := by
  induction word with
  | first begins =>
    intro c mem
    obtain rfl := Option.some_inj.mp mem
    exact .inl begins
  | firstEscape escape =>
    intro c mem
    obtain ⟨-, -⟩ := escape
    obtain rfl := Option.some_inj.mp mem
    exact .inr rfl
  | next word continues ih | nextEscape word escape ih =>
    intro c mem
    obtain ⟨d, ds, rfl⟩ := List.exists_cons_of_ne_nil word.ne_nil
    exact ih c mem

theorem whole_head {whole rest : List Char} (isWhole : Whole whole)
    (same : whole ++ rest = c :: cs) : c.isDigit := by
  cases isWhole with
  | zero =>
    obtain ⟨rfl, -⟩ := List.cons.inj same
    rfl
  | digits first =>
    obtain ⟨rfl, -⟩ := List.cons.inj same
    exact first

theorem Number.head (number : Number (c :: cs)) : c.isDigit ∨ c = '.' := by
  generalize same : c :: cs = all at number
  cases number with
  | whole isWhole | point isWhole => exact .inl (whole_head isWhole same.symm)
  | noWhole =>
    obtain ⟨rfl, -⟩ := List.cons.inj same
    exact .inr rfl
  | hex =>
    obtain ⟨rfl, -⟩ := List.cons.inj same
    exact .inl rfl

theorem Number.ne_point (number : Number cs) : cs ≠ ['.'] := by
  intro same
  cases number with
  | whole isWhole | point isWhole => exact nomatch whole_head isWhole same
  | noWhole isDigits =>
    obtain ⟨nonempty, -⟩ := isDigits
    exact nonempty (List.append_eq_nil_iff.mp (List.cons.inj same).2).1
  | hex => cases same

theorem Text.head (text : Text (c :: cs)) : c = '"' ∨ c = '\'' := by
  cases text with
  | mk isQuote => exact isQuote

theorem Comment.head (comment : Comment (c :: cs)) : c = '/' := by
  cases comment with
  | line | block => rfl

/-- No element is empty. -/
theorem Element.ne_nil {token : Option Token} (element : Element alphabet cs token) :
    cs ≠ [] := by
  cases element with
  | blank isBlank => exact List.cons_ne_nil _ _
  | comment comment => cases comment <;> exact List.cons_ne_nil _ _
  | word word => exact word.ne_nil
  | number number =>
    rintro rfl
    generalize same : ([] : List Char) = all at number
    cases number with
    | whole isWhole => cases isWhole <;> cases same
    | point isWhole => cases isWhole <;> cases same
    | noWhole | hex => cases same
  | text text => cases text; exact List.cons_ne_nil _ _
  | punctuator isSign => exact ne_nil_of_punctuator isSign

end First

/-! ### Elements by their first characters -/

/-- What an element may be that begins with some character. -/
inductive Lead where
  | blank
  | word
  | number
  | text
  | sign
  deriving DecidableEq

/-- What an element may be that begins with the character. -/
def Alphabet.lead (alphabet : Alphabet) (c : Char) : Lead :=
  if isBlank c then .blank
  else if alphabet.begins c || c = '\\' then .word
  else if c.isDigit then .number
  else if c = '"' || c = '\'' then .text
  else .sign

section Lead

variable {alphabet : Alphabet} {c : Char} {cs : List Char} {token : Option Token}

/-- The decimal digits. -/
def digitChars : List Char :=
  ['0', '1', '2', '3', '4', '5', '6', '7', '8', '9']

theorem mem_digitChars (digit : c.isDigit) : c ∈ digitChars := by
  have bounds : 48 ≤ c.toNat ∧ c.toNat ≤ 57 := by
    simpa [Char.isDigit, UInt32.le_iff_toNat_le] using digit
  have all : ∀ n < 58, 48 ≤ n → Char.ofNat n ∈ digitChars := by decide
  rw [← Char.ofNat_toNat c]
  exact all c.toNat (Nat.lt_succ_of_le bounds.2) bounds.1

theorem isBlank_of_begins (begins : alphabet.begins c) : isBlank c = false := by
  rw [Bool.eq_false_iff]
  intro blank
  -- letters that are not foreign are those of ASCII, and none of them is blank
  have foreign : isForeign c = false := by simp [isForeign, blank]
  have ascii : c.isAlpha ∨ c ∈ ['$', '_'] := by
    simpa [Alphabet.begins, Alphabet.isLetter, foreign, or_assoc] using begins
  rcases ascii with letter | sign
  · have bound : c.toNat < 0x80 := by
      obtain upper | lower := (Bool.or_eq_true _ _).mp letter
      · have range : 'A'.val ≤ c.val ∧ c.val ≤ 'Z'.val := of_decide_eq_true upper
        exact Nat.lt_of_le_of_lt (UInt32.le_iff_toNat_le.mp range.2) (by decide)
      · have range : c.val ≤ 'z'.val := of_decide_eq_true ((Bool.and_eq_true _ _).mp lower).2
        exact Nat.lt_of_le_of_lt (UInt32.le_iff_toNat_le.mp range) (by decide)
    have all : ∀ n < 0x80, isBlank (Char.ofNat n) → (Char.ofNat n).isAlpha = false := by decide
    rw [← Char.ofNat_toNat c] at blank letter
    rw [all c.toNat bound blank] at letter
    cases letter
  · have all : (['$', '_'].all fun c => !isBlank c) = true := rfl
    simpa [blank] using List.all_eq_true.mp all c sign

theorem lead_of_begins (begins : alphabet.begins c) : alphabet.lead c = .word := by
  simp [Alphabet.lead, isBlank_of_begins begins, begins]

theorem lead_of_mem {lead : Lead} {xs : List Char} (mem : c ∈ xs)
    (all : (xs.all fun x => decide (alphabet.lead x = lead)) = true) : alphabet.lead c = lead :=
  of_decide_eq_true (List.all_eq_true.mp all c mem)

theorem lead_of_isDigit (digit : c.isDigit) : alphabet.lead c = .number :=
  lead_of_mem (mem_digitChars digit) rfl

theorem lead_of_mem_signs (sign : c ∈ signs) : alphabet.lead c = .sign :=
  lead_of_mem sign rfl

/-- What the first character of an element says about it. -/
theorem Element.shape (element : Element alphabet (c :: cs) token) :
    match alphabet.lead c with
    | .blank => cs = [] ∧ token = none
    | .word => Word alphabet (c :: cs) ∧ token = some (.ofWord (.ofList (c :: cs)))
    | .number => Number (c :: cs) ∧ token = some (.number (.ofList (c :: cs)))
    | .text => Text (c :: cs) ∧ token = some (.text (.ofList (c :: cs)))
    | .sign =>
      (c = '.' ∧ cs ≠ [] ∧ token = some (.number (.ofList (c :: cs)))) ∨
      (c = '/' ∧ (cs.head? = some '/' ∨ cs.head? = some '*') ∧ token = none) ∨
      ∃ sign ∈ punctuators, sign.toList = c :: cs ∧ token = some (.punctuator sign) := by
  generalize same : c :: cs = all at element
  cases element with
  | blank blank =>
    obtain ⟨rfl, rfl⟩ := List.cons.inj same
    have lead : alphabet.lead c = .blank := by simp [Alphabet.lead, blank]
    rw [lead]
    exact ⟨rfl, rfl⟩
  | comment comment =>
    subst same
    obtain rfl := comment.head
    refine .inr (.inl ⟨rfl, ?_, rfl⟩)
    cases comment with
    | line => exact .inl rfl
    | block => exact .inr rfl
  | word word =>
    subst same
    have lead : alphabet.lead c = .word := by
      rcases word.head c rfl with begins | rfl
      · exact lead_of_begins begins
      · rfl
    rw [lead]
    exact ⟨word, rfl⟩
  | number number =>
    subst same
    rcases number.head with digit | rfl
    · rw [lead_of_isDigit digit]
      exact ⟨number, rfl⟩
    · -- a number that begins with a point has digits behind it
      refine .inl ⟨rfl, ?_, rfl⟩
      rintro rfl
      exact number.ne_point rfl
  | text text =>
    subst same
    rcases text.head with rfl | rfl
    · exact ⟨text, rfl⟩
    · exact ⟨text, rfl⟩
  | punctuator isSign =>
    rw [lead_of_mem_signs (mem_signs_of_punctuator isSign same.symm)]
    exact .inr (.inr ⟨_, isSign, rfl, rfl⟩)

end Lead

/-! ### One list of tokens -/

section Unique

variable {alphabet : Alphabet} {cs : List Char} {token other : Option Token}

/-- The only punctuator that begins with a point is the point. -/
theorem eq_nil_of_point {sign : String} (isSign : sign ∈ punctuators)
    (same : sign.toList = '.' :: cs) : cs = [] := by
  have all : ∀ sign ∈ punctuators, sign.toList.head? = some '.' → sign = "." := by
    decide +kernel
  obtain rfl := all sign isSign (by rw [same]; rfl)
  exact (List.cons.inj same).2.symm

/-- No punctuator begins like a comment. -/
theorem no_comment_of_slash {sign : String} (isSign : sign ∈ punctuators)
    (same : sign.toList = '/' :: cs) : ¬ (cs.head? = some '/' ∨ cs.head? = some '*') := by
  have all : ∀ sign ∈ punctuators, sign.toList.head? = some '/' →
      sign.toList.tail.head? ≠ some '/' ∧ sign.toList.tail.head? ≠ some '*' := by
    decide +kernel
  have both := all sign isSign (by rw [same]; rfl)
  rw [same] at both
  exact not_or.mpr both

/-- The characters of an element tell what token it is. -/
theorem Element.token_unique (element : Element alphabet cs token)
    (again : Element alphabet cs other) : token = other := by
  obtain ⟨c, cs, rfl⟩ := List.exists_cons_of_ne_nil element.ne_nil
  have shape := element.shape
  have shape' := again.shape
  cases lead : alphabet.lead c with
  | blank | word | number | text =>
    simp only [lead] at shape shape'
    rw [shape.2, shape'.2]
  | sign =>
    simp only [lead] at shape shape'
    -- a point alone and a slash before neither a slash nor an asterisk are punctuators
    obtain ⟨rfl, long, rfl⟩ | ⟨rfl, opens, rfl⟩ | ⟨sign, isSign, same, rfl⟩ := shape <;>
      obtain ⟨ofPoint, long', rfl⟩ | ⟨ofSlash, opens', rfl⟩ | ⟨sign', isSign', same', rfl⟩ :=
        shape'
    · rfl
    · cases ofSlash
    · exact absurd (eq_nil_of_point isSign' same') long
    · cases ofPoint
    · rfl
    · exact absurd opens (no_comment_of_slash isSign' same')
    · subst ofPoint
      exact absurd (eq_nil_of_point isSign same) long'
    · subst ofSlash
      exact absurd opens' (no_comment_of_slash isSign same)
    · rw [String.toList_inj.mp (same.trans same'.symm)]

/-- A source text has one list of tokens at most. -/
theorem Tokens.unique {source : List Char} {tokens others : List Token}
    (first : Tokens alphabet source tokens) (second : Tokens alphabet source others) :
    tokens = others := by
  induction first generalizing others with
  | nil =>
    generalize same : ([] : List Char) = source at second
    cases second with
    | nil => rfl
    | element element =>
      exact absurd (List.append_eq_nil_iff.mp same.symm).1 element.ne_nil
  | @element cs rest token tokens element longest _ _ ih =>
    generalize same : cs ++ rest = source at second
    cases second with
    | nil => exact absurd (List.append_eq_nil_iff.mp same).1 element.ne_nil
    | @element cs' rest' token' tokens' element' longest' _ others' =>
      -- each of the two elements is a longest one, so they are equally long
      have le := longest' cs token element (same ▸ List.prefix_append cs rest)
      have ge := longest cs' token' element' (same ▸ List.prefix_append cs' rest')
      obtain ⟨rfl, rfl⟩ := List.append_inj same (Nat.le_antisymm le ge)
      rw [element.token_unique element', ih others']

end Unique

/-! ### Cutting off the first token -/

section Cutting

variable {alphabet : Alphabet} {cs rest : List Char} {tokens : List Token}

/-- A token is cut off if every element that begins with the same character is no
longer. -/
theorem Tokens.cut {c : Char} {token : Option Token} (element : Element alphabet (c :: cs) token)
    (longest : ∀ longer other, Element alphabet (c :: longer) other → longer <+: cs ++ rest →
      longer.length ≤ cs.length)
    (apart : ∀ numeral, token = some (.number numeral) → ∀ c ∈ rest.head?,
      alphabet.begins c = false ∧ c.isDigit = false)
    (others : Tokens alphabet rest tokens) :
    Tokens alphabet (c :: cs ++ rest) (token.toList ++ tokens) := by
  refine .element element ?_ apart others
  intro longer other isElement start
  rcases List.prefix_cons_iff.mp start with rfl | ⟨others, rfl, isStart⟩
  · exact Nat.zero_le _
  · exact Nat.succ_le_succ (longest others other isElement isStart)

theorem Tokens.space (others : Tokens alphabet rest tokens) :
    Tokens alphabet (' ' :: rest) tokens := by
  have element : Element alphabet [' '] none := .blank rfl
  refine Tokens.cut element ?_ nofun others
  intro longer other isElement _
  obtain ⟨rfl, -⟩ : longer = [] ∧ other = none := isElement.shape
  exact Nat.le_refl _

/-- An element that begins a text is no longer than another if it cannot go on
with the character behind that. -/
theorem length_le_of_apart {longer : List Char} (start : longer <+: cs ++ rest)
    (apart : ∀ c more, longer = cs ++ c :: more → rest.head? ≠ some c) :
    longer.length ≤ cs.length := by
  refine Nat.le_of_not_lt fun more => ?_
  -- otherwise the longer one goes on with what follows the shorter one
  have inside : cs <+: longer :=
    List.prefix_of_prefix_length_le (List.prefix_append _ _) start (Nat.le_of_lt more)
  obtain ⟨tail, rfl⟩ := inside
  obtain ⟨behind, same⟩ := start
  cases tail with
  | nil => simp at more
  | cons c tail =>
    rw [List.append_assoc] at same
    exact apart c tail rfl (by rw [← List.append_cancel_left same]; rfl)

theorem Word.append {first : List Char} (word : Word alphabet first)
    (continues : ∀ c ∈ cs, alphabet.continues c) : Word alphabet (first ++ cs) := by
  induction cs generalizing first with
  | nil => rwa [List.append_nil]
  | cons c cs ih =>
    obtain ⟨here, others⟩ := List.forall_mem_cons.mp continues
    rw [List.append_cons]
    exact ih (.next word here) others

theorem Tokens.word {c : Char} (begins : alphabet.begins c)
    (continues : ∀ c ∈ cs, alphabet.continues c)
    (ends : ∀ c ∈ rest.head?, alphabet.continues c = false ∧ c ≠ '\\')
    (others : Tokens alphabet rest tokens) :
    Tokens alphabet (c :: cs ++ rest) (.ofWord (.ofList (c :: cs)) :: tokens) := by
  have element := Element.word ((Word.first begins).append continues)
  refine Tokens.cut element ?_ ?_ others
  · -- whatever begins like a word is one, and no word has the next character in it
    intro longer other isElement start
    have shape := isElement.shape
    rw [lead_of_begins begins] at shape
    refine length_le_of_apart start fun d more same next => ?_
    have mem : d ∈ c :: longer := by simp [same]
    obtain ⟨noWord, noBackslash⟩ := ends d next
    rcases shape.1.mem d mem with inWord | backslash
    · rw [noWord] at inWord
      cases inWord
    · exact noBackslash backslash
  · intro numeral isNumber
    rw [Token.ofWord] at isNumber
    split at isNumber <;> cases isNumber

end Cutting

section Literals

variable {alphabet : Alphabet} {cs rest : List Char} {tokens : List Token}

/-- A number is a run of digits, and what follows them in it is neither a digit
nor a sign. -/
theorem Number.span (number : Number cs) :
    ∃ digits tail, cs = digits ++ tail ∧ (∀ d ∈ digits, d.isDigit) ∧
      ∀ c ∈ tail.head?, c ∈ ['.', 'e', 'E', 'x', 'X'] := by
  have ofWhole {whole : List Char} (isWhole : Whole whole) : ∀ d ∈ whole, d.isDigit := by
    obtain ⟨d, ds, rfl, first, others⟩ := Json.whole_digits isWhole
    exact List.forall_mem_cons.mpr ⟨first, others⟩
  cases number with
  | @whole whole exponent isWhole isExponent =>
    refine ⟨whole, exponent, rfl, ofWhole isWhole, fun c mem => ?_⟩
    cases isExponent with
    | absent => cases mem
    | plain letter | signed letter =>
      obtain rfl := Option.some_inj.mp mem
      obtain rfl | rfl := letter <;> decide
  | point isWhole =>
    refine ⟨_, _, rfl, ofWhole isWhole, fun c mem => ?_⟩
    obtain rfl := Option.some_inj.mp mem
    decide
  | noWhole =>
    refine ⟨[], _, rfl, nofun, fun c mem => ?_⟩
    obtain rfl := Option.some_inj.mp mem
    decide
  | hex isX =>
    refine ⟨['0'], _, rfl, List.forall_mem_singleton.mpr rfl, fun c mem => ?_⟩
    obtain rfl := Option.some_inj.mp mem
    obtain rfl | rfl := isX <;> decide

theorem Tokens.number {whole : List Char} (isWhole : Whole whole)
    (ends : ∀ c ∈ rest.head?, alphabet.begins c = false ∧ c.isDigit = false ∧ c ≠ '.')
    (others : Tokens alphabet rest tokens) :
    Tokens alphabet (whole ++ rest) (.number (.ofList whole) :: tokens) := by
  have isNumber : Number (whole ++ []) := .whole isWhole .absent
  rw [List.append_nil] at isNumber
  obtain ⟨c, cs, rfl, digit, digits⟩ := Json.whole_digits isWhole
  have all : ∀ d ∈ c :: cs, d.isDigit := List.forall_mem_cons.mpr ⟨digit, digits⟩
  have element : Element alphabet (c :: cs) _ := .number isNumber
  refine Tokens.cut element ?_ (fun _ _ c mem => ⟨(ends c mem).1, (ends c mem).2.1⟩) others
  intro longer other isElement start
  have shape := isElement.shape
  rw [lead_of_isDigit digit] at shape
  refine length_le_of_apart start fun d more same next => ?_
  obtain ⟨noLetter, noDigit, noPoint⟩ := ends d next
  obtain ⟨run, tail, span, isRun, isTail⟩ := shape.1.span
  rw [same, ← List.cons_append] at span
  have stops : ∀ t ∈ tail.head?, t.isDigit = false := by
    have none : (['.', 'e', 'E', 'x', 'X'].all fun t => !t.isDigit) = true := rfl
    exact fun t mem => by simpa using List.all_eq_true.mp none t (isTail t mem)
  have stops' : ∀ t ∈ (d :: more).head?, t.isDigit = false := by
    intro t mem
    obtain rfl := Option.some_inj.mp mem
    exact noDigit
  -- the digits in front are the same, so the character behind them is too
  have sameRun : c :: cs = run := by
    rw [← Json.takeWhile_digits all stops', span, Json.takeWhile_digits isRun stops]
  subst sameRun
  obtain rfl := List.append_cancel_left span
  rcases List.mem_cons.mp (isTail d rfl) with point | isLetter
  · exact noPoint point
  · have letters : (['e', 'E', 'x', 'X'].all alphabet.begins) = true := rfl
    rw [List.all_eq_true.mp letters d isLetter] at noLetter
    cases noLetter

/-- What follows the string literal that is open. -/
def closing (quote : Char) : List Char → Option (List Char)
  | [] => none
  | '\\' :: _ :: cs => closing quote cs
  | c :: cs => if c = quote then some cs else closing quote cs

theorem closing_cons {quote c : Char} (noQuote : c ≠ quote) (noBackslash : c ≠ '\\')
    (cs : List Char) : closing quote (c :: cs) = closing quote cs := by
  rw [closing.eq_def]
  split
  · contradiction
  · next same => exact absurd (List.cons.inj same).1 noBackslash
  · next same =>
    obtain ⟨rfl, rfl⟩ := List.cons.inj same
    rw [if_neg noQuote]

theorem closing_hex {quote : Char} (isQuote : quote = '"' ∨ quote = '\'') (digits : List Char)
    (hex : ∀ d ∈ digits, isHexDigit d) (cs : List Char) :
    closing quote (digits ++ cs) = closing quote cs := by
  induction digits with
  | nil => rfl
  | cons d digits ih =>
    obtain ⟨here, others⟩ := List.forall_mem_cons.mp hex
    have noQuote : d ≠ quote := by
      rintro rfl
      obtain rfl | rfl := isQuote <;> cases here
    have noBackslash : d ≠ '\\' := by
      rintro rfl
      cases here
    rw [List.cons_append, closing_cons noQuote noBackslash, ih others]

/-- The first quote that no backslash stands before closes a literal. -/
theorem closing_characters {quote : Char} (isQuote : quote = '"' ∨ quote = '\'')
    (characters : Characters quote cs) (rest : List Char) :
    closing quote (cs ++ quote :: rest) = some rest := by
  induction characters with
  | nil =>
    rw [List.nil_append, closing.eq_def]
    obtain rfl | rfl := isQuote <;> rfl
  | plain noQuote noBackslash _ _ ih =>
    rw [List.cons_append, closing_cons noQuote noBackslash]
    exact ih
  | escaped _ _ _ _ ih | null _ _ ih | continued _ _ ih => exact ih
  | byte isHex _ ih =>
    rw [← ih]
    exact closing_hex isQuote [_, _] (by simpa using isHex) _
  | unit isEscape _ ih =>
    obtain ⟨-, hex⟩ := isEscape
    rw [← ih, List.append_assoc]
    exact closing_hex isQuote _ hex _
  | continuedPair _ ih =>
    have noQuote : '\n' ≠ quote := by obtain rfl | rfl := isQuote <;> decide
    exact (closing_cons noQuote (by decide) _).trans ih

theorem Tokens.text (characters : Characters '"' cs) (others : Tokens alphabet rest tokens) :
    Tokens alphabet ('"' :: (cs ++ ['"']) ++ rest)
      (.text (.ofList ('"' :: (cs ++ ['"']))) :: tokens) := by
  have element : Element alphabet ('"' :: (cs ++ ['"'])) _ := .text (.mk (.inl rfl) characters)
  refine Tokens.cut element ?_ nofun others
  intro longer other isElement start
  obtain ⟨isText, -⟩ : Text ('"' :: longer) ∧ _ := isElement.shape
  obtain ⟨-, characters'⟩ := isText
  obtain ⟨behind, same⟩ := start
  -- both literals are closed by the same quote
  have closed := closing_characters (.inl rfl) characters rest
  have closed' := closing_characters (.inl rfl) characters' behind
  rw [List.append_assoc, List.append_assoc] at same
  rw [← List.singleton_append, ← same] at closed
  obtain rfl := Option.some_inj.mp (closed'.symm.trans closed)
  rw [← List.append_assoc, ← List.append_assoc] at same
  exact Nat.le_of_eq (congrArg List.length (List.append_cancel_right same))

end Literals

section Signs

variable {alphabet : Alphabet} {rest : List Char} {tokens : List Token}

/-- The characters that make a longer punctuator out of the given one. -/
def extensions (sign : String) : List Char :=
  punctuators.filterMap fun longer =>
    if sign.toList <+: longer.toList then (longer.toList.drop sign.toList.length).head? else none

theorem Tokens.punctuator {sign : String} (isSign : sign ∈ punctuators)
    (noPoint : sign.toList.head? ≠ some '.') (noSlash : sign.toList.head? ≠ some '/')
    (ends : ∀ c ∈ rest.head?, c ∉ extensions sign) (others : Tokens alphabet rest tokens) :
    Tokens alphabet (sign.toList ++ rest) (.punctuator sign :: tokens) := by
  have element : Element alphabet sign.toList _ := .punctuator isSign
  obtain ⟨c, cs, first⟩ := List.exists_cons_of_ne_nil (ne_nil_of_punctuator isSign)
  rw [first] at element noPoint noSlash ⊢
  refine Tokens.cut element ?_ nofun others
  intro longer other isElement start
  have shape := isElement.shape
  rw [lead_of_mem_signs (mem_signs_of_punctuator isSign first)] at shape
  -- only a punctuator could be longer, as the sign begins neither a number nor a comment
  rcases shape with ⟨rfl, -⟩ | ⟨rfl, -⟩ | ⟨long, isLong, sameLong, -⟩
  · exact absurd rfl noPoint
  · exact absurd rfl noSlash
  · refine length_le_of_apart start fun d more same next => ends d next ?_
    have extended : long.toList = sign.toList ++ d :: more := by
      rw [sameLong, first, same, List.cons_append]
    rw [extensions, List.mem_filterMap]
    refine ⟨long, isLong, ?_⟩
    rw [extended, if_pos (List.prefix_append _ _), List.drop_left]
    rfl

end Signs

end PascalCompiler.Ecma
