import PascalCompiler.Proofs.Document.Soundness
import PascalCompiler.Proofs.Outline.Normal

/-!
# Dumps say what the tree is

The text that shows a tree determines its normal form, if all positions in the tree are valid.
The text determines the outline, the outline the entries for the parts of each node, and those
the parts, as every part has a form that its kind of node fixes.

## Main results

* `Component.normalize_eq_of_outline?`: parts of the same form with the same outline have the same
  normal form
* `Node.normalize_eq_of_ofNode`: nodes with the same outline have the same normal form
* `Document.dump_eq_iff`: files have the same text if and only if they have the same normal form
-/

namespace PascalCompiler

open Outline

/-! ### Lists and options -/

section Lists

variable {α β γ : Type} {f : α → β} {g : α → γ} {first second : List α}

/-- If what is the same under one function is the same under another, so are lists of it. -/
theorem map_eq_of_map_eq (same : first.map f = second.map f)
    (each : ∀ a ∈ first, ∀ b ∈ second, f a = f b → g a = g b) :
    first.map g = second.map g := by
  induction first generalizing second with
  | nil =>
    cases second with
    | nil => rfl
    | cons b second => cases same
  | cons a first ih =>
    cases second with
    | nil => cases same
    | cons b second =>
      obtain ⟨heads, tails⟩ := List.cons.inj same
      have here : g a = g b := each a List.mem_cons_self b List.mem_cons_self heads
      have rest := ih tails fun a isFirst b isSecond =>
        each a (List.mem_cons_of_mem _ isFirst) b (List.mem_cons_of_mem _ isSecond)
      rw [List.map_cons, List.map_cons, here, rest]

/-- Two values that may be withheld are withheld both, or are the same. -/
theorem eq_of_ite_none_eq {p q : Prop} [Decidable p] [Decidable q] {a b : α}
    (same : (if p then none else some a) = if q then none else some b) : p ∧ q ∨ a = b := by
  by_cases holds : p
  · by_cases holds' : q
    · exact .inl ⟨holds, holds'⟩
    · rw [if_pos holds, if_neg holds'] at same
      cases same
  · by_cases holds' : q
    · rw [if_neg holds, if_pos holds'] at same
      cases same
    · rw [if_neg holds, if_neg holds'] at same
      exact .inr (Option.some_inj.mp same)

end Lists

/-! ### Entries -/

section Entries

variable {parts parts' : List Component}

/-- Parts with the same label have the same entry, if the same entries are shown and no label
stands for two parts. -/
theorem entry?_eq_of_label_eq (distinct : (parts.map Component.label).Nodup)
    (distinct' : (parts'.map Component.label).Nodup)
    (same : ∀ entry, entry ∈ parts.filterMap Component.entry? ↔
      entry ∈ parts'.filterMap Component.entry?) :
    ∀ part ∈ parts, ∀ part' ∈ parts', part.label = part'.label → part.entry? = part'.entry? := by
  have one {parts parts' : List Component} (distinct' : (parts'.map Component.label).Nodup)
      (same : ∀ entry, entry ∈ parts.filterMap Component.entry? →
        entry ∈ parts'.filterMap Component.entry?) :
      ∀ part ∈ parts, ∀ part' ∈ parts', part.label = part'.label →
        ∀ entry ∈ part.entry?, entry ∈ part'.entry? := by
    intro part isPart part' isPart' labels entry isEntry
    obtain ⟨other, isOther, isEntry'⟩ :=
      List.mem_filterMap.mp (same entry (List.mem_filterMap.mpr ⟨part, isPart, isEntry⟩))
    obtain ⟨outline, -, rfl⟩ := Option.map_eq_some_iff.mp isEntry
    obtain ⟨outline', -, sameEntry⟩ := Option.map_eq_some_iff.mp isEntry'
    -- the part that has the entry on the other side has the label, and only one has it
    have sameLabel : other.label = part'.label := (Prod.mk.inj sameEntry).1.trans labels
    obtain rfl := List.inj_on_of_nodup_map distinct' isOther isPart' sameLabel
    exact isEntry'
  intro part isPart part' isPart' labels
  apply Option.ext
  intro entry
  exact ⟨one distinct' (fun entry => (same entry).mp) part isPart part' isPart' labels entry,
    one distinct (fun entry => (same entry).mpr) part' isPart' part isPart labels.symm entry⟩

/-- If the same entries are shown, parts of the same forms have the same normal forms, provided
that this is so of any two of them that have the same outline. -/
theorem map_normalize_parts_eq (forms : parts.map Component.form = parts'.map Component.form)
    (distinct : (parts.map Component.label).Nodup) (distinct' : (parts'.map Component.label).Nodup)
    (each : ∀ part ∈ parts, ∀ part' ∈ parts', part.form = part'.form →
      part.outline? = part'.outline? → part.normalize = part'.normalize)
    (same : ∀ entry, entry ∈ parts.filterMap Component.entry? ↔
      entry ∈ parts'.filterMap Component.entry?) :
    parts.map Component.normalize = parts'.map Component.normalize := by
  refine map_eq_of_map_eq forms fun part isPart part' isPart' form => ?_
  have labels : part.label = part'.label := by
    rw [← part.label_form, form, part'.label_form]
  have entries := entry?_eq_of_label_eq distinct distinct' same part isPart part' isPart' labels
  rw [Component.entry?, Component.entry?, labels] at entries
  have outlines : part.outline? = part'.outline? :=
    Option.map_injective (fun _ _ pairs => (Prod.mk.inj pairs).2) entries
  exact each part isPart part' isPart' form outlines

end Entries

/-! ### Comments -/

theorem ProgramComments.eq_of_parts {first second : ProgramComments}
    (same : first.parts = second.parts) : first = second := by
  cases first
  cases second
  simp_all [ProgramComments.parts, optional_inj]

/-! ### Parts -/

/-- The node has an outline, which is the one of a record. -/
def Node.IsShown (node : Node) : Prop :=
  ∃ name entries, ofNode node = some (.branch ("&" ++ name) entries)

/-- Nodes of the one list and of the other have the same normal form if they are shown alike. -/
def Node.Told (nodes nodes' : List Node) : Prop :=
  ∀ node ∈ nodes, ∀ node' ∈ nodes', ofNode node = ofNode node' → node.normalize = node'.normalize

section Parts

/-- The items of a list that has no gaps are those of its entries. -/
theorem map_snd_items {items : List (Option Outline)} (full : none ∉ items) (start : Nat) :
    ((items.zipIdx start).filterMap fun (item, index) =>
      item.map (Numeral.decimal index, ·)).map (fun entry => some entry.2) = items := by
  induction items generalizing start with
  | nil => rfl
  | cons item items ih =>
    obtain ⟨first, rest⟩ := List.ne_and_not_mem_of_not_mem_cons full
    cases item with
    | none => exact absurd rfl first
    | some outline => exact congrArg (some outline :: ·) (ih rest (start + 1))

/-- Lists that are shown alike have the same items. -/
theorem list_injective {type type' : String} {items items' : List (Option Outline)}
    (full : none ∉ items) (full' : none ∉ items')
    (same : Outline.list type items = Outline.list type' items') : items = items' := by
  rcases eq_of_ite_none_eq same with ⟨empty, empty'⟩ | branches
  · rw [List.isEmpty_iff.mp empty, List.isEmpty_iff.mp empty']
  · obtain ⟨-, entries⟩ := Outline.branch.inj branches
    rw [← map_snd_items full 0, ← map_snd_items full' 0, entries]

/-- A list is not shown as a record. -/
theorem list_ne_record {type name : String} {items : List (Option Outline)}
    {entries : List (String × Outline)} :
    Outline.list type items ≠ some (.branch ("&" ++ name) entries) := by
  intro same
  rw [Outline.list] at same
  split at same
  · cases same
  · obtain ⟨heads, -⟩ := Outline.branch.inj (Option.some_inj.mp same)
    have first := congrArg (·.toList.head?) heads
    simp at first

variable {node node' : Option Node}

theorem map_normalize_eq (shown : ∀ x ∈ node, x.IsShown) (shown' : ∀ y ∈ node', y.IsShown)
    (told : Node.Told node.toList node'.toList) (same : node.bind ofNode = node'.bind ofNode) :
    node.map Node.normalize = node'.map Node.normalize := by
  cases node with
  | none =>
    cases node' with
    | none => rfl
    | some y =>
      obtain ⟨name, entries, isShown⟩ := shown' y rfl
      rw [Option.bind_some, isShown] at same
      cases same
  | some x =>
    cases node' with
    | none =>
      obtain ⟨name, entries, isShown⟩ := shown x rfl
      rw [Option.bind_some, isShown] at same
      cases same
    | some y =>
      exact congrArg some (told x (List.mem_singleton_self x) y (List.mem_singleton_self y) same)

variable {key : String} {listing : Listing} {nodes nodes' : List (Option Node)}

theorem items_full (full : none ∉ nodes) (shown : ∀ x ∈ nodes.reduceOption, x.IsShown) :
    none ∉ nodes.map (·.bind ofNode) := by
  intro gap
  obtain ⟨node, isNode, isGap⟩ := List.mem_map.mp gap
  cases node with
  | none => exact full isNode
  | some x =>
    obtain ⟨name, entries, isShown⟩ := shown x (List.mem_filterMap.mpr ⟨some x, isNode, rfl⟩)
    rw [Option.bind_some, isShown] at isGap
    cases isGap

/-- Lists of nodes that are shown alike have the same normal forms. -/
theorem normalize_list_eq (full : none ∉ nodes) (full' : none ∉ nodes')
    (shown : ∀ x ∈ nodes.reduceOption, x.IsShown) (shown' : ∀ y ∈ nodes'.reduceOption, y.IsShown)
    (told : Node.Told nodes.reduceOption nodes'.reduceOption)
    (same : (Component.list key listing nodes).outline? =
      (Component.list key listing nodes').outline?) :
    (Component.list key listing nodes).normalize =
      (Component.list key listing nodes').normalize := by
  have items := list_injective (items_full full shown) (items_full full' shown') same
  have isNode {nodes : List (Option Node)} {node : Option Node} (mem : node ∈ nodes) :
      ∀ x ∈ node, x ∈ nodes.reduceOption :=
    fun x isSome => List.mem_filterMap.mpr ⟨some x, isSome ▸ mem, rfl⟩
  have forms : nodes.map (·.map Node.normalize) = nodes'.map (·.map Node.normalize) := by
    refine map_eq_of_map_eq items fun node mem node' mem' same => ?_
    refine map_normalize_eq (fun x isSome => shown x (isNode mem x isSome))
      (fun y isSome => shown' y (isNode mem' y isSome)) (fun x isSome y isSome' => ?_) same
    exact told x (isNode mem x (Option.mem_toList.mp isSome)) y
      (isNode mem' y (Option.mem_toList.mp isSome'))
  -- an empty list in brackets is the exception
  cases nodes with
  | nil =>
    obtain rfl := List.map_eq_nil_iff.mp forms.symm
    rfl
  | cons node nodes =>
    cases nodes' with
    | nil => cases forms
    | cons node' nodes' =>
      rw [Component.normalize, Component.normalize, forms]
      · exact fun _ isEmpty => List.cons_ne_nil _ _ isEmpty
      · exact fun _ isEmpty => List.cons_ne_nil _ _ isEmpty

/-- What follows `except` is a clause or a list. If both are shown alike, they are nothing. -/
theorem normalize_child_eq_list (shown : ∀ x ∈ node, x.IsShown)
    (same : node.bind ofNode = (Component.list key .bracketed nodes).outline?) :
    (Component.child key [] false node).normalize =
      (Component.list key .bracketed nodes).normalize := by
  cases node with
  | none =>
    rw [Option.bind_none, Component.outline?, Outline.list] at same
    split at same
    · next empty =>
      obtain rfl := List.map_eq_nil_iff.mp (List.isEmpty_iff.mp empty)
      rfl
    · cases same
  | some x =>
    obtain ⟨name, entries, isShown⟩ := shown x rfl
    rw [Option.bind_some, isShown] at same
    exact absurd same.symm list_ne_record

theorem text_injective {value value' : String}
    (same : (Field.text "" value).outline = (Field.text "" value').outline) : value = value' := by
  rw [Field.text, Field.text, apply_ite Field.outline, apply_ite Field.outline] at same
  rcases eq_of_ite_none_eq same with ⟨empty, empty'⟩ | leaves
  · rw [empty, empty']
  · have texts := congrArg (·.toList ++ []) (Outline.leaf.inj leaves)
    exact (Quoted.quote_append_injective texts).1

theorem number_injective {value value' : Int}
    (same : (Field.number "" value).outline = (Field.number "" value').outline) :
    value = value' := by
  rw [Field.number, Field.number, apply_ite Field.outline, apply_ite Field.outline] at same
  rcases eq_of_ite_none_eq same with ⟨zero, zero'⟩ | leaves
  · rw [zero, zero']
  · exact Numeral.decimal_injective (Outline.leaf.inj leaves)

/-- Comments of programs that are shown alike have the same normal form. -/
theorem comments_normalize_eq {comments comments' : ProgramComments}
    (shown : ∀ x ∈ (Component.comments comments).nodes, x.IsShown)
    (shown' : ∀ y ∈ (Component.comments comments').nodes, y.IsShown)
    (told : Node.Told (Component.comments comments).nodes (Component.comments comments').nodes)
    (same : (Component.comments comments).outline? = (Component.comments comments').outline?) :
    comments.normalize = comments'.normalize := by
  rw [outline?_comments, outline?_comments] at same
  rcases eq_of_ite_none_eq same with ⟨empty, empty'⟩ | branches
  · rw [empty, empty']
  obtain ⟨-, entries⟩ := Outline.branch.inj branches
  apply ProgramComments.eq_of_parts
  rw [ProgramComments.parts_normalize, ProgramComments.parts_normalize]
  refine map_normalize_parts_eq rfl comments.label_parts.1 comments'.label_parts.1 ?_
    fun entry => by rw [entries]
  intro part isPart part' isPart' form outlines
  obtain ⟨key, node, rfl, isNode⟩ := ProgramComments.exists_child isPart
  obtain ⟨key', node', rfl, isNode'⟩ := ProgramComments.exists_child isPart'
  cases form
  refine congrArg (Component.child key [] false) (map_normalize_eq
    (fun x isSome => shown x (isNode x isSome)) (fun y isSome => shown' y (isNode' y isSome))
    (fun x isSome y isSome' => ?_) outlines)
  exact told x (isNode x (Option.mem_toList.mp isSome)) y
    (isNode' y (Option.mem_toList.mp isSome'))

/-- Parts of the same form that are shown alike have the same normal form. -/
theorem Component.normalize_eq_of_outline? {part part' : Component} (complete : part.Complete)
    (complete' : part'.Complete) (shown : ∀ x ∈ part.nodes, x.IsShown)
    (shown' : ∀ y ∈ part'.nodes, y.IsShown) (told : Node.Told part.nodes part'.nodes)
    (form : part.form = part'.form) (same : part.outline? = part'.outline?) :
    part.normalize = part'.normalize := by
  have toNodes {node : Option Node} (each : ∀ x ∈ node.toList, x.IsShown) :
      ∀ x ∈ node, x.IsShown :=
    fun x isSome => each x (Option.mem_toList.mpr isSome)
  cases part with
  | child key aliases needed node =>
    cases part' with
    | child key' aliases' needed' node' =>
      cases form
      exact congrArg (Component.child key aliases needed)
        (map_normalize_eq (toNodes shown) (toNodes shown') told same)
    | list key' listing' nodes' =>
      -- only what follows `except` is a node or a list
      cases listing' <;> cases form
      exact normalize_child_eq_list (toNodes shown) same
    | _ => cases form
  | list key listing nodes =>
    cases part' with
    | child key' aliases' needed' node' =>
      cases listing <;> cases form
      exact (normalize_child_eq_list (toNodes shown') same.symm).symm
    | list key' listing' nodes' =>
      obtain ⟨rfl, rfl⟩ : key = key' ∧ listing = listing' := by
        cases listing <;> cases listing' <;> cases form <;> exact ⟨rfl, rfl⟩
      exact normalize_list_eq complete.1 complete'.1 shown shown' told same
    | text | integer | comments => cases listing <;> cases form
  | text key aliases needed value =>
    cases part' with
    | text key' aliases' needed' value' =>
      cases form
      exact congrArg (Component.text key aliases needed) (text_injective same)
    | list key' listing' => cases listing' <;> cases form
    | _ => cases form
  | integer key value =>
    cases part' with
    | integer key' value' =>
      cases form
      exact congrArg (Component.integer key) (number_injective same)
    | list key' listing' => cases listing' <;> cases form
    | _ => cases form
  | comments value =>
    cases part' with
    | comments value' =>
      exact congrArg Component.comments (comments_normalize_eq shown shown' told same)
    | list key' listing' => cases listing' <;> cases form
    | _ => cases form

end Parts

/-! ### Nodes -/

section Nodes

variable {file : String} {first second : Node}

theorem Node.isShown (wellFormed : first.WellFormed file) (valid : first.position.isValid) :
    first.IsShown := by
  obtain ⟨-, -, complete, -⟩ := wellFormed
  rw [Node.IsShown, ofNode_eq valid complete, shownAs, String.append_assoc]
  exact ⟨_, _, rfl⟩

theorem Position.normalize_eq {position position' : Position} (isIn : position.IsIn file)
    (isIn' : position'.IsIn file) (valid : position.isValid) (valid' : position'.isValid)
    (same : position.render = position'.render) : position.normalize = position'.normalize := by
  obtain ⟨lines, columns⟩ := Position.render_injective isIn isIn' valid valid' same
  rw [Position.normalize, Position.normalize, Position.file_eq isIn valid,
    Position.file_eq isIn' valid', lines, columns]

/-- Nodes of well-formed trees that have the same outline have the same normal form. -/
theorem Node.normalize_eq_of_ofNode (wellFormed : first.WellFormed file)
    (wellFormed' : second.WellFormed file) (valid : first.All fun node => node.position.isValid)
    (valid' : second.All fun node => node.position.isValid)
    (same : ofNode first = ofNode second) : first.normalize = second.normalize := by
  induction wellFormed generalizing second with
  | @mk first isIn unscoped complete inner ih =>
    obtain ⟨isIn', unscoped', complete', inner'⟩ := wellFormed'
    obtain ⟨here, inside⟩ := Node.all_iff.mp valid
    obtain ⟨here', inside'⟩ := Node.all_iff.mp valid'
    rw [ofNode_eq here complete, ofNode_eq here' complete'] at same
    obtain ⟨heads, entries⟩ := Outline.branch.inj (Option.some_inj.mp same)
    obtain ⟨spans, members⟩ := List.cons.inj entries
    -- the opening line tells the kind, the first entry the position, the others the parts
    have kind : first.kind = second.kind := by
      apply Kind.recordName_injective
      simpa [qualified, ← String.toList_inj] using heads
    have position : first.position.normalize = second.position.normalize :=
      Position.normalize_eq isIn isIn' here here' (Outline.leaf.inj (Prod.mk.inj spans).2)
    refine Node.normalize_eq kind position (unscoped.trans unscoped'.symm) ?_
    refine map_normalize_parts_eq ?_ first.label_parts.1 second.label_parts.1 ?_ ?_
    · rw [← first.blank_kind.1, ← second.blank_kind.1, kind]
    · intro part isPart part' isPart' form outlines
      refine Component.normalize_eq_of_outline? (complete part isPart) (complete' part' isPart')
        (fun x isChild => ?_) (fun y isChild => ?_) (fun x isChild y isChild' => ?_) form outlines
      · exact Node.isShown (inner part isPart x isChild) (inside part isPart x isChild x .root)
      · exact Node.isShown (inner' part' isPart' y isChild)
          (inside' part' isPart' y isChild y .root)
      · exact ih part isPart x isChild (inner' part' isPart' y isChild')
          (inside part isPart x isChild) (inside' part' isPart' y isChild')
    · -- entries are not shown in the order of the parts, which does not matter to what they are
      intro entry
      rw [← (first.shown_perm.filterMap _).mem_iff, members,
        (second.shown_perm.filterMap _).mem_iff]

end Nodes

/-! ### Files -/

section Files

variable {first second : File}

theorem File.node_normalize (f : File) : f.normalize.node = f.node.normalize := by
  cases f <;> rfl

theorem File.node_injective (same : first.node = second.node) : first = second := by
  cases first <;> cases second <;> cases same <;> rfl

theorem Node.dump_eq_render {node : Node} {outline : Outline}
    (isOutline : ofNode node = some outline) : node.dump = outline.render := by
  rw [Node.dump, isOutline, Option.map_some, Option.getD_some]

end Files

/-! ### Greetings in documents -/

section Sample

open Document Json.Grammar

/-- A place on the first line, by the digit of its offset. -/
def firstLine (digit : Char) : Position :=
  ⟨"p.pas", (digit.toNat - '0'.toNat : Nat), 1, 0⟩

/-- The statement that writes a text. -/
def greeting (digit : Char) (text : String) : Stmt :=
  .call (firstLine digit) (some ⟨firstLine digit, "Write"⟩) [some (.text (firstLine digit) text)]

/-- The program with this statement. -/
def greetingProgram (digit : Char) (text : String) : File :=
  .program
    { position := firstLine digit
      block := some ⟨firstLine digit, [], some ⟨firstLine digit, [some (greeting digit text)]⟩⟩ }

theorem greetingProgram_valid (digit : Char) (text : String) :
    (greetingProgram digit text).node.All fun node => node.position.isValid := by
  have valid : (firstLine digit).isValid := rfl
  simp [greetingProgram, greeting, File.node, all_program, all_block, all_compound, all_callStmt,
    all_text, Node.position, Stmt.position, Expr.position, valid, Component.nodes,
    ProgramComments.named, List.reduceOption]

theorem greetingProgram_wellFormed {digit : Char} (text : String)
    (fits : Numeral.fitsInt64 (firstLine digit).offset) :
    (greetingProgram digit text).node.WellFormed "p.pas" := by
  have isIn : (firstLine digit).IsIn "p.pas" := .inr ⟨rfl, fits, rfl, rfl⟩
  have target : (Node.ident ⟨firstLine digit, "Write"⟩).WellFormed "p.pas" :=
    .mk isIn rfl (by simp [Node.parts, Component.Complete]) (by simp [Node.parts, Component.nodes])
  have argument : (Node.expr (.text (firstLine digit) text)).WellFormed "p.pas" :=
    .mk isIn rfl (by simp [Node.parts, Expr.parts, Component.Complete])
      (by simp [Node.parts, Expr.parts, Component.nodes])
  have statement : (Node.stmt (greeting digit text)).WellFormed "p.pas" :=
    .mk isIn rfl
      (by simp [greeting, Node.parts, Stmt.parts, Component.mandatory, Component.listOf,
        Component.Complete])
      (by simpa [greeting, Node.parts, Stmt.parts, Component.mandatory, Component.listOf,
        Component.nodes, List.reduceOption] using ⟨target, argument⟩)
  have body :
      (Node.stmt (.compound ⟨firstLine digit, [some (greeting digit text)]⟩)).WellFormed "p.pas" :=
    .mk isIn rfl (by simp [Node.parts, Stmt.parts, Component.listOf, Component.Complete])
      (by simpa [Node.parts, Stmt.parts, Component.listOf, Component.nodes, List.reduceOption]
        using statement)
  have block : (Node.block ⟨firstLine digit, [],
      some ⟨firstLine digit, [some (greeting digit text)]⟩⟩).WellFormed "p.pas" :=
    .mk isIn rfl
      (by simp [Node.parts, Component.listOf, Component.mandatory, Component.Complete])
      (by simpa [Node.parts, Component.listOf, Component.mandatory, Component.nodes,
        List.reduceOption] using body)
  exact .mk isIn rfl
    (by simp [greetingProgram, File.node, Node.parts, Component.optional, Component.mandatory,
      Component.Complete])
    (by simpa [greetingProgram, File.node, Node.parts, Component.optional, Component.mandatory,
      Component.nodes, ProgramComments.named, List.reduceOption] using block)

/-- The object of a node on the first line. -/
def objectText (digit : Char) (tag members : String) : String :=
  "\x7b\"type\":\"" ++ tag ++ "\",\"location\":\x7b\"start\":\x7b\"offset\":" ++
    String.ofList [digit] ++ ",\"line\":1\x7d\x7d," ++ members ++ "\x7d"

/-- A document that spells the program. -/
def greetingDocument (digit : Char) (text : String) : Bytes :=
  .ofString <|
    objectText digit "program" <| "\"body\":" ++
    objectText digit "block" ("\"statements\":" ++
    objectText digit "compound_statement" ("\"list\":[" ++
    objectText digit "procedure_statement" ("\"target\":" ++
      objectText digit "identifier" "\"value\":\"Write\"" ++ ",\"params\":[" ++
      objectText digit "string_constant" ("\"value\":\"" ++ text ++ "\"") ++ "]") ++ "]"))

/-- What a document gives as the place of a node on the first line. -/
def placeMember (digit : Char) (outer inner : Span) : String × Json :=
  ("location", .object outer [("start", .object inner
    [("offset", .number (String.ofList [digit])), ("line", .number (String.ofList ['1']))])])

/-- A node whose members begin with its tag and a place on the first line. -/
theorem spells_firstLine {members : List (String × Json)} {digit : Char} {tag : String}
    {span tagSpan outer inner : Span} {node : Node} (isDigit : digit.isDigit)
    (absent : ∀ later ∈ members, later.1 ≠ "type" ∧ later.1 ≠ "location")
    (tagged : tag = node.kind.tag)
    (stands : node.position = firstLine digit)
    (parts : ∀ part ∈ node.parts, SpellsPart "p.pas"
      (("type", .string tagSpan tag) :: placeMember digit outer inner :: members) part) :
    Spells "p.pas" (.object span
      (("type", .string tagSpan tag) :: placeMember digit outer inner :: members)) node := by
  subst tagged
  have names (first second : Json) :
      named [("offset", first), ("line", second)] "offset" = [("offset", first)] ∧
        named [("offset", first), ("line", second)] "line" = [("line", second)] ∧
        named [("offset", first), ("line", second)] "column" = [] := by
    simp [named, Folding.foldsTo, Folding.fold]
  refine .mk (holds_head ?_) ?_ parts
  · exact List.forall_mem_cons.mpr ⟨by simp [placeMember], fun later mem => (absent later mem).1⟩
  · rw [stands]
    exact .known ((holds_head fun later mem => (absent later mem).2).cons _)
      (named_cons_of_eq (by decide)) (.number (names _ _).1 (.unsigned (.single isDigit)))
      (.number (names _ _).2.1 (.unsigned (.single rfl))) (.absent (names _ _).2.2)

section Spelled

variable {digit : Char} (isDigit : digit.isDigit)
include isDigit

/-- A node with a text and nothing else. -/
theorem spells_value {tag text : String} {span tagSpan outer inner valueSpan : Span} {node : Node}
    {aliases : List String} {needed : Bool} (tagged : tag = node.kind.tag)
    (stands : node.position = firstLine digit)
    (parts : node.parts = [.text "value" aliases needed text]) :
    Spells "p.pas" (.object span [("type", .string tagSpan tag), placeMember digit outer inner,
      ("value", .string valueSpan text)]) node := by
  refine spells_firstLine isDigit (by simp) tagged stands ?_
  rw [parts, List.forall_mem_singleton]
  exact .text (.inl ⟨((holds_head (by simp)).cons _).cons _, by simp⟩)

theorem spells_greeting {span tagSpan outer inner listSpan : Span} {text : String}
    {targetSpan : Span} {members : List (String × Json)} {argument : Json}
    (isTarget : Spells "p.pas" (.object targetSpan members) (.ident ⟨firstLine digit, "Write"⟩))
    (isArgument : Spells "p.pas" argument (.expr (.text (firstLine digit) text))) :
    Spells "p.pas" (.object span [("type", .string tagSpan "procedure_statement"),
      placeMember digit outer inner, ("target", .object targetSpan members),
      ("params", .array listSpan [argument])])
      (.stmt (greeting digit text)) := by
  refine spells_firstLine isDigit (by simp) rfl rfl ?_
  simp only [greeting, Node.parts, Stmt.parts, List.forall_mem_cons, List.not_mem_nil,
    false_implies, implies_true, and_true]
  exact ⟨.child (.inl ⟨((holds_head (by simp)).cons _).cons _, by simp⟩) isTarget,
    .list (.inl ⟨(((holds_head (by simp)).cons _).cons _).cons _, by simp⟩)
      (.cons isArgument .nil)⟩

theorem spells_greetingProgram {s₀ s₁ s₂ s₃ s₄ s₅ s₆ s₇ s₈ s₉ s s' listSpan : Span}
    {text : String} {statement : Json}
    (isStatement : Spells "p.pas" statement (.stmt (greeting digit text))) :
    Spells "p.pas" (.object s₀ [("type", .string s₁ "program"), placeMember digit s₂ s₃,
      ("body", .object s₄ [("type", .string s₅ "block"), placeMember digit s₆ s₇,
        ("statements", .object s₈ [("type", .string s₉ "compound_statement"),
          placeMember digit s s', ("list", .array listSpan [statement])])])])
      (greetingProgram digit text).node := by
  refine spells_firstLine isDigit (by simp) rfl rfl ?_
  simp only [greetingProgram, File.node, Node.parts, List.forall_mem_cons, List.not_mem_nil,
    false_implies, implies_true, and_true]
  refine ⟨.noChild (omits_of_absent (by simp [placeMember])),
    .noChild (omits_of_absent (by simp [placeMember])),
    .child (.inl ⟨((holds_head (by simp)).cons _).cons _, by simp⟩) ?_,
    .noComments (omits_of_absent (by simp [placeMember]))⟩
  refine spells_firstLine isDigit (by simp) rfl rfl ?_
  simp only [Node.parts, List.forall_mem_cons, List.not_mem_nil, false_implies, implies_true,
    and_true]
  refine ⟨.noList (omits_of_absent (by simp [placeMember])) (by decide),
    .child (.inl ⟨((holds_head (by simp)).cons _).cons _, by simp⟩) ?_⟩
  refine spells_firstLine isDigit (by simp) rfl rfl ?_
  simp only [Node.parts, Stmt.parts, List.forall_mem_cons, List.not_mem_nil, false_implies,
    implies_true, and_true]
  exact .list (.inl ⟨((holds_head (by simp)).cons _).cons _, by simp⟩) (.cons isStatement .nil)

end Spelled

/-- The documents are read as the programs they spell. -/
theorem decode_greetingDocument {digit : Char} {text : String}
    (isSample : (digit, text) ∈ [('1', "Hi"), ('9', "Hi"), ('1', "Ho")]) :
    decode "p.pas" (greetingDocument digit text) = .ok (greetingProgram digit text) := by
  simp only [List.mem_cons, Prod.mk.injEq, List.not_mem_nil, or_false] at isSample
  obtain ⟨isDigit, nonzero, fits, plain⟩ : digit.isDigit ∧ digit ≠ '0' ∧
      Numeral.fitsInt64 (firstLine digit).offset ∧ text.toList.all isPlain := by
    rcases isSample with ⟨rfl, rfl⟩ | ⟨rfl, rfl⟩ | ⟨rfl, rfl⟩ <;> decide
  have place {n : Nat} : Member n _ (placeMember digit _ _) :=
    member_compact "location" (by decide) (.object (.last (member_compact "start" (by decide)
      (.object (.cons (member_compact "offset" (by decide) (value_digit digit isDigit nonzero))
        (.last (member_compact "line" (by decide) (value_digit '1' rfl (by decide)))))))))
  have target {n : Nat} : Value n _ _ :=
    .object (.cons (member_compact "type" (by decide) (value_plain "identifier" (by decide)))
      (.cons place (.last (member_compact "value" (by decide) (value_plain "Write" (by decide))))))
  have argument {n : Nat} : Value n _ _ :=
    .object (.cons (member_compact "type" (by decide) (value_plain "string_constant" (by decide)))
      (.cons place (.last (member_compact "value" (by decide) (value_plain text plain)))))
  have statement {n : Nat} : Value n _ _ :=
    .object (.cons
      (member_compact "type" (by decide) (value_plain "procedure_statement" (by decide)))
      (.cons place (.cons (member_compact "target" (by decide) target)
        (.last (member_compact "params" (by decide) (.array (.last (padded_compact argument))))))))
  have body {n : Nat} : Value n _ _ :=
    .object (.cons
      (member_compact "type" (by decide) (value_plain "compound_statement" (by decide)))
      (.cons place (.last (member_compact "list" (by decide)
        (.array (.last (padded_compact statement)))))))
  have block {n : Nat} : Value n _ _ :=
    .object (.cons (member_compact "type" (by decide) (value_plain "block" (by decide)))
      (.cons place (.last (member_compact "statements" (by decide) body))))
  have program {n : Nat} : Value n _ _ :=
    .object (.cons (member_compact "type" (by decide) (value_plain "program" (by decide)))
      (.cons place (.last (member_compact "body" (by decide) block))))
  have written := text_of_eq (padded_compact program)
    (by rcases isSample with ⟨rfl, rfl⟩ | ⟨rfl, rfl⟩ | ⟨rfl, rfl⟩ <;> decide +kernel :
      _ = greetingDocument digit text)
  have parsed := Json.parse?_of_text written (Nat.le_of_ble_eq_true rfl)
  refine decode_eq_ok (isVoid_of_object written) parsed
    (reads_of_spells ?_ (greetingProgram_wellFormed text fits))
  apply spells_greetingProgram isDigit
  exact spells_greeting isDigit (spells_value isDigit rfl rfl rfl)
    (spells_value isDigit rfl rfl rfl)

end Sample

/-! ### Dumps of documents -/

/-- Two documents of the same name that give valid positions are read as files that are shown
alike if and only if the files have the same normal form. -/
theorem Document.dump_eq_iff {name : String} {text text' : Bytes} {first second : File}
    (read : decode name text = .ok first) (read' : decode name text' = .ok second)
    (valid : first.node.All fun node => node.position.isValid)
    (valid' : second.node.All fun node => node.position.isValid) :
    first.node.dump = second.node.dump ↔ first.normalize = second.normalize := by
  have wellFormed := wellFormed_of_decode read
  have wellFormed' := wellFormed_of_decode read'
  obtain ⟨_, _, shown⟩ := Node.isShown wellFormed (valid _ .root)
  obtain ⟨_, _, shown'⟩ := Node.isShown wellFormed' (valid' _ .root)
  rw [Node.dump_eq_render shown, Node.dump_eq_render shown']
  constructor
  · intro texts
    -- the dump has no label; any that is not the one of positions will do
    have other : "" ≠ "Span" := by decide
    have outlines := render_injective (Node.isLegible wellFormed valid "" other _ shown)
      (Node.isLegible wellFormed' valid' "" other _ shown') texts
    apply File.node_injective
    rw [File.node_normalize, File.node_normalize]
    apply Node.normalize_eq_of_ofNode wellFormed wellFormed' valid valid'
    rw [shown, shown', outlines]
  · intro forms
    have nodes : first.node.normalize = second.node.normalize := by
      rw [← File.node_normalize, forms, File.node_normalize]
    have outlines : ofNode first.node = ofNode second.node := by
      rw [← Node.ofNode_normalize wellFormed valid, nodes,
        Node.ofNode_normalize wellFormed' valid']
    rw [shown, shown'] at outlines
    rw [Option.some_inj.mp outlines]

/-- Two documents that differ in offsets only are shown alike, and one with another text is not. -/
theorem Document.dump_eq_iff_greetingDocument :
    ∃ first second third, decode "p.pas" (greetingDocument '1' "Hi") = .ok first ∧
      decode "p.pas" (greetingDocument '9' "Hi") = .ok second ∧
      decode "p.pas" (greetingDocument '1' "Ho") = .ok third ∧ first ≠ second ∧
      first.node.dump = second.node.dump ∧ first.node.dump ≠ third.node.dump := by
  have read : decode "p.pas" (greetingDocument '1' "Hi") = .ok (greetingProgram '1' "Hi") :=
    decode_greetingDocument (by simp)
  have read' : decode "p.pas" (greetingDocument '9' "Hi") = .ok (greetingProgram '9' "Hi") :=
    decode_greetingDocument (by simp)
  have read'' : decode "p.pas" (greetingDocument '1' "Ho") = .ok (greetingProgram '1' "Ho") :=
    decode_greetingDocument (by simp)
  refine ⟨_, _, _, read, read', read'', ?_, ?_, ?_⟩
  · simp [greetingProgram, firstLine]
  · exact (dump_eq_iff read read' (greetingProgram_valid _ _) (greetingProgram_valid _ _)).mpr rfl
  · rw [Ne, dump_eq_iff read read'' (greetingProgram_valid _ _) (greetingProgram_valid _ _)]
    simp [greetingProgram, greeting, File.normalize, ProgramFile.normalize, Block.normalize,
      Compound.normalize, Stmt.normalizeAll, Stmt.normalize?, Stmt.normalize, Expr.normalize,
      Expr.relocate]

end PascalCompiler
