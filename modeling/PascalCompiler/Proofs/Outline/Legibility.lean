import Mathlib.Data.List.Nodup
import PascalCompiler.Proofs.Document.RoundTrip
import PascalCompiler.Proofs.Outline.Members
import PascalCompiler.Proofs.Outline.Rendering
import PascalCompiler.Proofs.Tree.Everywhere
import PascalCompiler.Proofs.Tree.Shape

/-!
# Outlines of trees can be read

If all positions in a well-formed tree are valid, its outline is legible: every position is one
of the file, labels have no colons, and what is on a line is a number, a quoted text or the
opening line of a record or list.

## Main results

* `Position.render_injective`: positions in a file with the same text have the same line and column
* `Outline.legible_outline?`: parts of a node have legible outlines if the nodes in them have
* `Node.isLegible`: nodes of well-formed trees have legible outlines
-/

namespace PascalCompiler

open Outline

/-! ### Positions -/

section Positions

variable {file : String} {position position' : Position}

/-- What stands behind the file in a position. -/
def Position.place (position : Position) : List Char :=
  (Numeral.decimal position.line).toList ++
    if position.column = 0 then [] else ':' :: (Numeral.decimal position.column).toList

theorem Position.file_eq (isIn : position.IsIn file) (valid : position.isValid) :
    position.file = file := by
  rcases isIn with rfl | ⟨same, -⟩
  · cases valid
  · exact same

theorem Position.toList_render (isIn : position.IsIn file) (valid : position.isValid) :
    position.render.toList = (fileLabel file).toList ++ position.place := by
  rw [Position.render, if_pos valid, Position.file_eq isIn valid, ← fileLabel]
  by_cases none : position.column = 0
  · simp [Position.place, none]
  · simp [Position.place, none]

theorem Position.comma_not_mem_place : ',' ∉ position.place := by
  have noComma (n : Int) : ',' ∉ (Numeral.decimal n).toList :=
    Numeral.not_mem_decimal n (by decide) (by decide)
  rw [Position.place, List.mem_append, not_or]
  refine ⟨noComma _, ?_⟩
  split
  · exact List.not_mem_nil
  · exact List.not_mem_cons_of_ne_of_not_mem (by decide) (noComma _)

/-- Positions in a file that have the same text have the same line and column. -/
theorem Position.render_injective (isIn : position.IsIn file) (isIn' : position'.IsIn file)
    (valid : position.isValid) (valid' : position'.isValid)
    (same : position.render = position'.render) :
    position.line = position'.line ∧ position.column = position'.column := by
  have noColon (n : Int) : ':' ∉ (Numeral.decimal n).toList :=
    Numeral.not_mem_decimal n (by decide) (by decide)
  have stops (n : Int) : ∀ c ∈ (if n = 0 then [] else ':' :: (Numeral.decimal n).toList).head?,
      c = ':' := by
    intro c isHead
    split at isHead
    · cases isHead
    · exact (Option.some_inj.mp isHead).symm
  have places := congrArg String.toList same
  rw [toList_render isIn valid, toList_render isIn' valid'] at places
  obtain ⟨lines, columns⟩ := append_injective_of_head (noColon _) (noColon _) (stops _) (stops _)
    (List.append_cancel_left places)
  refine ⟨Numeral.decimal_injective (String.toList_inj.mp lines), ?_⟩
  -- no column is zero, and is not shown
  split at columns
  · next none =>
    split at columns
    · next none' => rw [none, none']
    · cases columns
  · split at columns
    · cases columns
    · exact Numeral.decimal_injective (String.toList_inj.mp (List.cons.inj columns).2)

end Positions

/-! ### Labels and heads -/

theorem Component.label_form (part : Component) : part.form.label = part.label := by
  cases part with
  | list _ listing _ => cases listing <;> rfl
  | _ => rfl

/-- The label of an entry: it is not cut by a colon, and it is not the one of positions. -/
def Outline.isLabel (label : String) : Bool :=
  !label.toList.contains ':' && label != "Span"

theorem Outline.isLabel_iff {label : String} :
    isLabel label ↔ ':' ∉ label.toList ∧ label ≠ "Span" := by
  simp [isLabel]

/-- The labels of the parts of a node are distinct, and are labels of entries. -/
theorem Node.label_parts (node : Node) :
    (node.parts.map Component.label).Nodup ∧ ∀ part ∈ node.parts, isLabel part.label := by
  -- labels depend on the kind of the node only, so one node of each kind is looked at
  have all : (Kind.all.all fun kind => decide (kind.blank.parts.map Component.label).Nodup &&
      kind.blank.parts.all fun part => isLabel part.label) = true := by
    decide +kernel
  have here := List.all_eq_true.mp all node.kind (Document.kind_mem_all node)
  rw [Bool.and_eq_true, decide_eq_true_eq, node.blank_kind.1, List.map_map] at here
  obtain ⟨distinct, labels⟩ := here
  constructor
  · have same : Component.label ∘ Component.form = Component.label :=
      funext Component.label_form
    rwa [same] at distinct
  · intro part isPart
    have isLabel := List.all_eq_true.mp labels part.form (List.mem_map_of_mem isPart)
    rwa [Component.label_form] at isLabel

/-- So are those of the comments of a program. -/
theorem ProgramComments.label_parts (comments : ProgramComments) :
    (comments.parts.map Component.label).Nodup ∧ ∀ part ∈ comments.parts, isLabel part.label := by
  have labels : comments.parts.map Component.label = ["pre", "uses", "end", "post"].map labelOf :=
    rfl
  have distinct : (["pre", "uses", "end", "post"].map labelOf).Nodup := by
    decide +kernel
  have all : (["pre", "uses", "end", "post"].map labelOf).all isLabel = true := by
    decide +kernel
  rw [← labels] at distinct all
  exact ⟨distinct, fun part isPart => List.all_eq_true.mp all _ (List.mem_map_of_mem isPart)⟩

/-- The number of an item is the label of an entry. -/
theorem Outline.isLabel_decimal (n : Int) : isLabel (Numeral.decimal n) := by
  refine isLabel_iff.mpr ⟨Numeral.not_mem_decimal n (by decide) (by decide), fun same => ?_⟩
  have noLetter : 'S' ∉ (Numeral.decimal n).toList :=
    Numeral.not_mem_decimal n (by decide) (by decide)
  rw [same] at noLetter
  exact noLetter List.mem_cons_self

/-- The name of the records of a kind is on one line. -/
theorem Kind.oneLine_recordName (node : Node) : '\n' ∉ node.kind.recordName.toList := by
  have all : (Kind.all.all fun kind => !kind.recordName.toList.contains '\n') = true := by
    decide +kernel
  simpa using List.all_eq_true.mp all node.kind (Document.kind_mem_all node)

/-- Nodes whose records have the same name are of the same kind. -/
theorem Kind.recordName_injective {first second : Node}
    (same : first.kind.recordName = second.kind.recordName) : first.kind = second.kind := by
  have distinct : (Kind.all.map Kind.recordName).Nodup := by
    decide +kernel
  exact List.inj_on_of_nodup_map distinct (Document.kind_mem_all first)
    (Document.kind_mem_all second) same

/-! ### Parts -/

section Parts

variable {file label : String}

/-- The outline of the node can be read behind every label that is not the one of positions. -/
def Node.IsLegible (file : String) (node : Node) : Prop :=
  ∀ label ≠ "Span", ∀ outline ∈ ofNode node, Legible file label outline

theorem Outline.firstType_oneLine (nodes : List (Option Node)) :
    '\n' ∉ (firstType Node.kind nodes).toList := by
  have noName : '\n' ∉ "<nil>".toList := by decide
  rcases nodes with _ | ⟨_ | node, nodes⟩
  · exact noName
  · exact noName
  · have inName := Kind.oneLine_recordName node
    simpa [firstType, Kind.elementType, qualified] using inName

/-- A list can be read if its nodes can. -/
theorem Outline.legible_list {nodes : List (Option Node)}
    (inner : ∀ node ∈ nodes.reduceOption, node.IsLegible file) (other : label ≠ "Span") :
    ∀ outline ∈ Outline.list (firstType Node.kind nodes) (nodes.map (·.bind ofNode)),
      Legible file label outline := by
  intro outline isOutline
  rw [Outline.list] at isOutline
  split at isOutline
  · cases isOutline
  obtain rfl := Option.some_inj.mp isOutline
  -- absent nodes have no entry, so the numbers of the entries may have gaps
  have isItem : ∀ entry ∈ (nodes.map (·.bind ofNode)).zipIdx.filterMap fun item =>
      item.1.map (Numeral.decimal item.2, ·), ∃ node ∈ nodes.reduceOption,
        ∃ n : Int, entry.1 = Numeral.decimal n ∧ ofNode node = some entry.2 := by
    intro entry mem
    obtain ⟨⟨item, index⟩, isIndexed, isEntry⟩ := List.mem_filterMap.mp mem
    obtain ⟨shown, rfl, rfl⟩ := Option.map_eq_some_iff.mp isEntry
    obtain ⟨node, isNode, isShown⟩ := List.mem_map.mp (List.fst_mem_of_mem_zipIdx isIndexed)
    obtain ⟨node, rfl, isShown⟩ := Option.bind_eq_some_iff.mp isShown
    exact ⟨node, List.mem_filterMap.mpr ⟨some node, isNode, rfl⟩, index, rfl, isShown⟩
  have opens : Opens "[]" := ⟨'[', by decide, [']'], rfl⟩
  have noBreak : '\n' ∉ "[]".toList ∧ '\n' ∉ "\x7b // len ".toList := by decide
  refine .branch other (((opens.append _).append _).append _) ?_ ?_ ?_
  · simp only [String.toList_append, List.mem_append, not_or]
    exact ⟨⟨⟨noBreak.1, firstType_oneLine nodes⟩, noBreak.2⟩,
      Numeral.not_mem_decimal _ (by decide) (by decide)⟩
  · intro entry mem
    obtain ⟨node, -, n, isNumber, -⟩ := isItem entry mem
    rw [isNumber]
    exact (isLabel_iff.mp (isLabel_decimal n)).1
  · intro entry mem
    obtain ⟨node, isNode, n, isNumber, isShown⟩ := isItem entry mem
    rw [isNumber]
    exact inner node isNode _ (isLabel_iff.mp (isLabel_decimal n)).2 _ isShown

theorem Outline.legible_child {node : Option Node} (inner : ∀ child ∈ node, child.IsLegible file)
    (other : label ≠ "Span") : ∀ outline ∈ node.bind ofNode, Legible file label outline := by
  intro outline isOutline
  obtain ⟨node, rfl, isShown⟩ := Option.bind_eq_some_iff.mp isOutline
  exact inner node rfl label other outline isShown

/-- The entries for parts can be read if the parts can. -/
theorem Outline.legible_entries {parts : List Component}
    (labels : ∀ part ∈ parts, isLabel part.label)
    (each : ∀ part ∈ parts, ∀ label ≠ "Span", ∀ outline ∈ part.outline?,
      Legible file label outline) :
    ∀ entry ∈ parts.filterMap Component.entry?,
      ':' ∉ entry.1.toList ∧ Legible file entry.1 entry.2 := by
  intro entry mem
  obtain ⟨part, isPart, isEntry⟩ := List.mem_filterMap.mp mem
  obtain ⟨outline, isOutline, rfl⟩ := Option.map_eq_some_iff.mp isEntry
  obtain ⟨noColon, other⟩ := isLabel_iff.mp (labels part isPart)
  exact ⟨noColon, each part isPart _ other outline isOutline⟩

/-- The comments of a program are parts with one node at most. -/
theorem ProgramComments.exists_child {comments : ProgramComments} {part : Component}
    (isPart : part ∈ comments.parts) :
    ∃ key node, part = .child key [] false node ∧
      ∀ x ∈ node, x ∈ (Component.comments comments).nodes := by
  have nodes : comments.parts.flatMap Component.nodes = (Component.comments comments).nodes := by
    rcases comments with ⟨_ | _, _ | _, _ | _, _ | _⟩ <;> rfl
  have isNode : ∀ x ∈ part.nodes, x ∈ (Component.comments comments).nodes :=
    fun x mem => nodes ▸ List.mem_flatMap.mpr ⟨part, isPart, mem⟩
  simp only [ProgramComments.parts, List.mem_cons, List.not_mem_nil, or_false] at isPart
  obtain rfl | rfl | rfl | rfl := isPart
  all_goals exact ⟨_, _, rfl, fun x isSome => isNode x (Option.mem_toList.mpr isSome)⟩

/-- The comments of a program can be read if each of them can. -/
theorem Outline.legible_comments {comments : ProgramComments}
    (inner : ∀ node ∈ (Component.comments comments).nodes, node.IsLegible file)
    (other : label ≠ "Span") :
    ∀ outline ∈ (Component.comments comments).outline?, Legible file label outline := by
  have each : ∀ part ∈ comments.parts, ∀ label ≠ "Span", ∀ outline ∈ part.outline?,
      Legible file label outline := by
    intro part isPart label other
    obtain ⟨key, node, rfl, isNode⟩ := ProgramComments.exists_child isPart
    exact legible_child (fun x isSome => inner x (isNode x isSome)) other
  have entries := legible_entries comments.label_parts.2 each
  intro outline isOutline
  rw [outline?_comments] at isOutline
  split at isOutline
  · cases isOutline
  obtain rfl := Option.some_inj.mp isOutline
  have opens : Opens (qualified "ProgramComments" ++ "\x7b") := ⟨'d', by decide, _, rfl⟩
  have oneLine : '\n' ∉ (qualified "ProgramComments" ++ "\x7b").toList := by decide
  exact .branch other opens oneLine (fun entry mem => (entries entry mem).1)
    (fun entry mem => (entries entry mem).2)

/-- A part can be read if the nodes in it can. -/
theorem Outline.legible_outline? {part : Component}
    (inner : ∀ node ∈ part.nodes, node.IsLegible file) (other : label ≠ "Span") :
    ∀ outline ∈ part.outline?, Legible file label outline := by
  cases part with
  | child key aliases needed node =>
    exact legible_child (fun node isNode => inner node (Option.mem_toList.mpr isNode)) other
  | list key listing nodes => exact legible_list inner other
  | text key aliases needed value =>
    intro outline isOutline
    rw [Component.outline?, Field.text] at isOutline
    split at isOutline
    · cases isOutline
    · obtain rfl := Option.some_inj.mp isOutline
      exact .quoted other value
  | integer key value =>
    intro outline isOutline
    rw [Component.outline?, Field.number] at isOutline
    split at isOutline
    · cases isOutline
    · obtain rfl := Option.some_inj.mp isOutline
      exact .number other value
  | comments value => exact legible_comments inner other

/-- If all positions in a well-formed tree are valid, its outline can be read. -/
theorem Node.isLegible {node : Node} (wellFormed : node.WellFormed file)
    (valid : node.All fun inner => inner.position.isValid) : node.IsLegible file := by
  induction wellFormed with
  | @mk node isIn unscoped complete inner ih =>
    obtain ⟨here, inside⟩ := Node.all_iff.mp valid
    have each : ∀ part ∈ node.shown, ∀ label ≠ "Span", ∀ outline ∈ part.outline?,
        Legible file label outline := by
      intro part isShown label other
      have isPart := node.shown_perm.mem_iff.mp isShown
      apply legible_outline? _ other
      intro child isChild
      exact ih part isPart child isChild (inside part isPart child isChild)
    have labels : ∀ part ∈ node.shown, isLabel part.label :=
      fun part isShown => node.label_parts.2 part (node.shown_perm.mem_iff.mp isShown)
    have entries := legible_entries labels each
    intro label other outline isOutline
    rw [ofNode_eq here complete] at isOutline
    obtain rfl := Option.some_inj.mp isOutline
    have opens : Opens "&" := ⟨'&', by decide, [], rfl⟩
    have noColon : ':' ∉ "Span".toList := by decide
    have noBreak : '\n' ∉ "&".toList ∧ '\n' ∉ "delphi2js.".toList ∧ '\n' ∉ "\x7b".toList := by
      decide
    refine .branch other ((opens.append _).append _) ?_ ?_ ?_
    · simp only [qualified, String.toList_append, List.mem_append, not_or]
      exact ⟨⟨noBreak.1, noBreak.2.1, Kind.oneLine_recordName node⟩, noBreak.2.2⟩
    · exact List.forall_mem_cons.mpr ⟨noColon, fun entry mem => (entries entry mem).1⟩
    · -- the position is the first entry, and the only one that is a position
      refine List.forall_mem_cons.mpr ⟨?_, fun entry mem => (entries entry mem).2⟩
      exact .span Position.comma_not_mem_place (Position.toList_render isIn here)

end Parts

end PascalCompiler
