import PascalCompiler.Outline.Basic
import PascalCompiler.Proofs.Text.Reading

/-!
# Outlines from their text

The text of an outline says what the outline is, if its lines are what outlines of trees have:
numbers, quoted texts, positions in one file, and opening lines. The name of the file may hold
anything, line breaks and quotes included, but it is known.

Entries are found by their indentation. Behind the last entry of a branch the line is indented
less, so the first character behind the indentation tells whether another entry follows.

## Main definitions

* `Outline.Legible`: an outline with such lines

## Main results

* `Outline.renderAt_append_injective`: an outline can be told from what is behind its text
* `Outline.render_injective`: outlines with the same text are the same
-/

namespace PascalCompiler.Outline

/-- What stands before the line number in a position. -/
def fileLabel (file : String) : String :=
  if file = "" then "" else file ++ ":"

/-- The line begins as only opening lines of branches do. -/
def Opens (head : String) : Prop :=
  ∃ c ∈ ['&', '[', 'd'], ∃ cs, head.toList = c :: cs

theorem Opens.append {head : String} (opens : Opens head) (rest : String) :
    Opens (head ++ rest) := by
  obtain ⟨c, isOpening, cs, isHead⟩ := opens
  exact ⟨c, isOpening, cs ++ rest.toList, by rw [String.toList_append, isHead, List.cons_append]⟩

/-- The outline behind a label has lines that can be read. Positions stand behind the label
`Span` and nothing else does. -/
inductive Legible (file : String) : String → Outline → Prop where
  | span {text : String} {place : List Char} (plain : ',' ∉ place)
      (isPlace : text.toList = (fileLabel file).toList ++ place) : Legible file "Span" (.leaf text)
  | quoted {label : String} (other : label ≠ "Span") (value : String) :
      Legible file label (.leaf (Quoted.quote value))
  | number {label : String} (other : label ≠ "Span") (value : Int) :
      Legible file label (.leaf (Numeral.decimal value))
  | branch {label head : String} {entries : List (String × Outline)} (other : label ≠ "Span")
      (opens : Opens head) (oneLine : '\n' ∉ head.toList)
      (labels : ∀ entry ∈ entries, ':' ∉ entry.1.toList)
      (each : ∀ entry ∈ entries, Legible file entry.1 entry.2) :
      Legible file label (.branch head entries)

/-! ### Values -/

section Values

variable {file label text text' : String} {rest rest' : List Char}

/-- A number begins with a digit or a minus sign. -/
theorem decimal_append_ne {c : Char} {cs : List Char} (value : Int) (noDigit : c.isDigit = false)
    (noMinus : c ≠ '-') : (Numeral.decimal value).toList ++ rest ≠ c :: cs := by
  obtain ⟨d, ds, isDecimal, first, -⟩ := Numeral.decimal_eq_cons value
  rw [isDecimal, List.cons_append]
  intro same
  obtain ⟨rfl, -⟩ := List.cons.inj same
  rcases first with isDigit | isMinus
  · rw [noDigit] at isDigit
    cases isDigit
  · exact noMinus isMinus

/-- A value on one line is no opening line. -/
theorem leaf_append_ne {c : Char} {cs : List Char} (legible : Legible file label (.leaf text))
    (other : label ≠ "Span") (opens : c ∈ ['&', '[', 'd']) : text.toList ++ rest ≠ c :: cs := by
  have noValue : ∀ c ∈ ['&', '[', 'd'], c.isDigit = false ∧ c ≠ '-' ∧ c ≠ '"' := by
    simp only [List.forall_mem_cons]
    exact ⟨by decide, by decide, by decide, List.forall_mem_nil _⟩
  obtain ⟨noDigit, noMinus, noQuote⟩ := noValue c opens
  cases legible with
  | span => exact absurd rfl other
  | quoted _ value =>
    rw [Quoted.toList_quote_append]
    intro same
    exact noQuote (List.cons.inj same).1.symm
  | number _ value => exact decimal_append_ne value noDigit noMinus

/-- A value on one line ends where a comma follows that is not between quotes, or nothing. -/
theorem leaf_append_injective (legible : Legible file label (.leaf text))
    (legible' : Legible file label (.leaf text')) (stops : ∀ c ∈ rest.head?, c = ',')
    (stops' : ∀ c ∈ rest'.head?, c = ',') (same : text.toList ++ rest = text'.toList ++ rest') :
    text = text' ∧ rest = rest' := by
  cases legible with
  | span plain isPlace =>
    cases legible' with
    | span plain' isPlace' =>
      -- the file is the same, so the rest of the positions is compared
      rw [isPlace, isPlace', List.append_assoc, List.append_assoc] at same
      obtain ⟨rfl, behind⟩ :=
        append_injective_of_head plain plain' stops stops' (List.append_cancel_left same)
      exact ⟨String.toList_inj.mp (isPlace.trans isPlace'.symm), behind⟩
    | quoted other | number other => exact absurd rfl other
  | quoted other value =>
    cases legible' with
    | span => exact absurd rfl other
    | quoted _ value' =>
      obtain ⟨rfl, behind⟩ := Quoted.quote_append_injective same
      exact ⟨rfl, behind⟩
    | number _ value' =>
      rw [Quoted.toList_quote_append] at same
      exact absurd same.symm (decimal_append_ne value' (by decide) (by decide))
  | number other value =>
    cases legible' with
    | span => exact absurd rfl other
    | quoted _ value' =>
      rw [Quoted.toList_quote_append] at same
      exact absurd same (decimal_append_ne value (by decide) (by decide))
    | number _ value' =>
      have noComma (n : Int) : ',' ∉ (Numeral.decimal n).toList :=
        Numeral.not_mem_decimal n (by decide) (by decide)
      obtain ⟨digits, behind⟩ :=
        append_injective_of_head (noComma value) (noComma value') stops stops' same
      exact ⟨String.toList_inj.mp digits, behind⟩

end Values

/-! ### Lines -/

section Lines

variable {level : Nat} {head label : String} {outline : Outline}
  {entries : List (String × Outline)} {rest : List Char}

theorem toList_indent_succ :
    (indent (level + 1)).toList = (indent level).toList ++ ['·', ' '] := by
  simp [indent, String.toList_join, List.replicate_succ']

/-- What closes a branch stands behind its entries. -/
theorem toList_branch_append :
    (renderAt level (.branch head entries)).toList ++ rest =
      head.toList ++ '\n' ::
        ((renderEntries (level + 1) entries).toList ++
          ((indent level).toList ++ '\x7d' :: rest)) := by
  simp [renderAt]

/-- An entry stands on its own lines. -/
theorem toList_entry_append :
    (renderEntries level ((label, outline) :: entries)).toList ++ rest =
      (indent level).toList ++ (label.toList ++ ':' :: ' ' :: ((renderAt level outline).toList ++
        ',' :: '\n' :: ((renderEntries level entries).toList ++ rest))) := by
  simp [renderEntries]

/-- An entry is indented more than what closes the branch. -/
theorem entry_append_ne {behind : List Char} :
    (renderEntries (level + 1) ((label, outline) :: entries)).toList ++ rest ≠
      (indent level).toList ++ '\x7d' :: behind := by
  rw [toList_entry_append, toList_indent_succ, List.append_assoc]
  intro same
  have marks := (List.cons.inj (List.append_cancel_left same)).1
  cases marks

end Lines

/-! ### Outlines -/

mutual

/-- An outline can be told from what is behind its text, if that is a comma or nothing. -/
theorem renderAt_append_injective {file : String} {level : Nat} : ∀ {label : String}
    {outline outline' : Outline} {rest rest' : List Char}, Legible file label outline →
    Legible file label outline' → (∀ c ∈ rest.head?, c = ',') → (∀ c ∈ rest'.head?, c = ',') →
    (renderAt level outline).toList ++ rest = (renderAt level outline').toList ++ rest' →
      outline = outline' ∧ rest = rest'
  | _, .leaf text, .leaf text', _, _, legible, legible', stops, stops', same => by
    rw [renderAt, renderAt] at same
    obtain ⟨rfl, behind⟩ := leaf_append_injective legible legible' stops stops' same
    exact ⟨rfl, behind⟩
  | _, .leaf text, .branch head entries, _, _, legible, .branch other opens .., _, _, same => by
    obtain ⟨c, isOpening, cs, isHead⟩ := opens
    rw [renderAt, toList_branch_append, isHead, List.cons_append] at same
    exact absurd same (leaf_append_ne legible other isOpening)
  | _, .branch head entries, .leaf text, _, _, .branch other opens .., legible', _, _, same => by
    obtain ⟨c, isOpening, cs, isHead⟩ := opens
    rw [renderAt, toList_branch_append, isHead, List.cons_append] at same
    exact absurd same.symm (leaf_append_ne legible' other isOpening)
  | _, .branch head entries, .branch head' entries', _, _, .branch _ _ oneLine labels each,
      .branch _ _ oneLine' labels' each', _, _, same => by
    rw [toList_branch_append, toList_branch_append] at same
    -- the opening line ends at the first line break
    obtain ⟨heads, lines⟩ := append_cons_injective oneLine oneLine' same
    obtain ⟨rfl, behind⟩ := renderEntries_append_injective labels labels' each each' lines
    obtain rfl := String.toList_inj.mp heads
    exact ⟨rfl, behind⟩

/-- The entries of a branch can be told from what is behind the branch. -/
theorem renderEntries_append_injective {file : String} {level : Nat} :
    ∀ {entries entries' : List (String × Outline)} {rest rest' : List Char},
    (∀ entry ∈ entries, ':' ∉ entry.1.toList) → (∀ entry ∈ entries', ':' ∉ entry.1.toList) →
    (∀ entry ∈ entries, Legible file entry.1 entry.2) →
    (∀ entry ∈ entries', Legible file entry.1 entry.2) →
    (renderEntries (level + 1) entries).toList ++ ((indent level).toList ++ '\x7d' :: rest) =
      (renderEntries (level + 1) entries').toList ++ ((indent level).toList ++ '\x7d' :: rest') →
      entries = entries' ∧ rest = rest'
  | [], [], _, _, _, _, _, _, same =>
    ⟨rfl, (List.cons.inj (List.append_cancel_left (List.append_cancel_left same))).2⟩
  | [], (_, _) :: _, _, _, _, _, _, _, same => by
    rw [renderEntries] at same
    exact absurd same.symm entry_append_ne
  | (_, _) :: _, [], _, _, _, _, _, _, same => by
    rw [renderEntries] at same
    exact absurd same entry_append_ne
  | (label, outline) :: more, (label', outline') :: more', _, _, labels, labels', each, each',
      same => by
    obtain ⟨noColon, labelsOfMore⟩ := List.forall_mem_cons.mp labels
    obtain ⟨noColon', labelsOfMore'⟩ := List.forall_mem_cons.mp labels'
    obtain ⟨legible, eachOfMore⟩ := List.forall_mem_cons.mp each
    obtain ⟨legible', eachOfMore'⟩ := List.forall_mem_cons.mp each'
    rw [toList_entry_append, toList_entry_append] at same
    -- the label ends at the first colon, and what is shown at the comma behind it
    obtain ⟨sameLabel, shown⟩ :=
      append_cons_injective noColon noColon' (List.append_cancel_left same)
    obtain rfl := String.toList_inj.mp sameLabel
    have stops (behind : List Char) : ∀ c ∈ (',' :: behind).head?, c = ',' :=
      fun c isHead => (Option.some_inj.mp isHead).symm
    obtain ⟨rfl, behind⟩ :=
      renderAt_append_injective legible legible' (stops _) (stops _) (List.cons.inj shown).2
    obtain ⟨rfl, closing⟩ := renderEntries_append_injective labelsOfMore labelsOfMore' eachOfMore
      eachOfMore' (List.cons.inj (List.cons.inj behind).2).2
    exact ⟨rfl, closing⟩

end

/-- Outlines with the same text are the same. -/
theorem render_injective {file label : String} {outline outline' : Outline}
    (legible : Legible file label outline) (legible' : Legible file label outline')
    (same : outline.render = outline'.render) : outline = outline' := by
  have texts : (renderAt 0 outline).toList ++ [] = (renderAt 0 outline').toList ++ [] :=
    congrArg (·.toList ++ []) same
  have nothing : ∀ c ∈ ([] : List Char).head?, c = ',' := fun _ isHead => absurd isHead nofun
  exact (renderAt_append_injective legible legible' nothing nothing texts).1

end PascalCompiler.Outline
