import PascalCompiler.Proofs.Outline.Legibility
import PascalCompiler.Proofs.Tree.Normal

/-!
# Outlines of normal trees

Outlines show neither the offsets of positions nor empty lists of exception handlers. So a tree
whose positions are valid has the same outline as its normal form.

## Main results

* `Component.entry?_normalize`: a part has the entry of its normal form if the nodes in it have
* `Node.ofNode_normalize`: a tree has the outline of its normal form
-/

namespace PascalCompiler

open Outline

section Normal

variable {file : String} {part : Component} {node : Node}

theorem Component.complete_normalize (complete : part.Complete) : part.normalize.Complete := by
  cases part with
  | child key aliases needed node =>
    intro isNeeded
    rw [Option.isSome_map]
    exact complete isNeeded
  | list key listing nodes =>
    by_cases empty : listing = .bracketed ∧ nodes = []
    · -- the list becomes an absent node, which is not a needed one
      obtain ⟨rfl, rfl⟩ := empty
      exact fun needed => absurd needed Bool.false_ne_true
    · rw [Component.normalize]
      · refine ⟨fun gap => ?_, fun isNonempty isEmpty => ?_⟩
        · obtain ⟨node, isNode, isGap⟩ := List.mem_map.mp gap
          exact complete.1 (Option.map_eq_none_iff.mp isGap ▸ isNode)
        · exact complete.2 isNonempty (List.map_eq_nil_iff.mp isEmpty)
      · exact fun isBracketed isEmpty => empty ⟨isBracketed, isEmpty⟩
  | _ => exact complete

theorem Component.label_normalize (part : Component) : part.normalize.label = part.label := by
  cases part with
  | list key listing nodes => cases listing <;> cases nodes <;> rfl
  | _ => rfl

theorem bind_normalize {node : Option Node}
    (same : ∀ x ∈ node, ofNode x.normalize = ofNode x) :
    (node.map Node.normalize).bind ofNode = node.bind ofNode := by
  cases node with
  | none => rfl
  | some x => exact same x rfl

theorem outline?_normalize_list {key : String} {listing : Listing} {nodes : List (Option Node)}
    (same : ∀ x ∈ nodes.reduceOption, ofNode x.normalize = ofNode x) :
    (Component.list key listing nodes).normalize.outline? =
      (Component.list key listing nodes).outline? := by
  have items : (nodes.map (·.map Node.normalize)).map (·.bind ofNode) =
      nodes.map (·.bind ofNode) := by
    rw [List.map_map]
    refine List.map_congr_left fun node isNode => bind_normalize fun x isSome => ?_
    exact same x (List.mem_filterMap.mpr ⟨some x, isSome ▸ isNode, rfl⟩)
  have types := firstType_map (fun x => x.normalize_keeps.1) nodes
  cases nodes with
  | nil => cases listing <;> rfl
  | cons first rest =>
    rw [Component.normalize, Component.outline?, Component.outline?, items, types]
    exact fun _ isEmpty => List.cons_ne_nil _ _ isEmpty

theorem ProgramComments.parts_normalize (comments : ProgramComments) :
    comments.normalize.parts = comments.parts.map Component.normalize := by
  simp [ProgramComments.normalize, ProgramComments.parts, Component.optional,
    Component.normalize, Node.normalize, Function.comp_def]

theorem outline?_normalize_comments {comments : ProgramComments}
    (same : ∀ x ∈ (Component.comments comments).nodes, ofNode x.normalize = ofNode x) :
    (Component.comments comments.normalize).outline? = (Component.comments comments).outline? := by
  have entries : comments.normalize.parts.filterMap Component.entry? =
      comments.parts.filterMap Component.entry? := by
    rw [ProgramComments.parts_normalize, List.filterMap_map]
    refine List.filterMap_congr fun part isPart => ?_
    obtain ⟨key, node, rfl, isNode⟩ := ProgramComments.exists_child isPart
    exact congrArg (Option.map _) (bind_normalize fun x isSome => same x (isNode x isSome))
  have empty : comments.normalize = {} ↔ comments = {} := by
    rcases comments with ⟨_ | _, _ | _, _ | _, _ | _⟩ <;> simp [ProgramComments.normalize]
  rw [outline?_comments, outline?_comments, entries]
  simp only [empty]

theorem Component.entry?_normalize
    (same : ∀ x ∈ part.nodes, ofNode x.normalize = ofNode x) :
    part.normalize.entry? = part.entry? := by
  have outlines : part.normalize.outline? = part.outline? := by
    cases part with
    | child key aliases needed node =>
      exact bind_normalize fun x isSome => same x (Option.mem_toList.mpr isSome)
    | list key listing nodes => exact outline?_normalize_list same
    | comments value => exact outline?_normalize_comments same
    | _ => rfl
  rw [Component.entry?, Component.entry?, outlines, part.label_normalize]

theorem Node.shown_normalize (node : Node) :
    node.normalize.shown = node.shown.map Component.normalize := by
  -- only routines are shown in another order than that of their parts
  have parts := node.parts_normalize
  cases node with
  | decl d =>
    cases d with
    | routine r =>
      cases r
      simp [Node.normalize, Decl.normalize, Routine.normalize, Block.normalize?_eq, Node.shown,
        Component.optional, Component.mandatory, Component.listOf, Component.normalize,
        RoutineKind.parts_normalize, Function.comp_def]
    | _ => exact parts
  | _ => exact parts

/-- A node of a well-formed tree and its normal form have the same outline. -/
theorem Node.ofNode_normalize (wellFormed : node.WellFormed file)
    (valid : node.All fun inner => inner.position.isValid) :
    ofNode node.normalize = ofNode node := by
  induction wellFormed with
  | @mk node isIn unscoped complete inner ih =>
    obtain ⟨here, inside⟩ := Node.all_iff.mp valid
    obtain ⟨kind, position, -⟩ := node.normalize_keeps
    have here' : node.normalize.position.isValid := by
      rw [position]
      exact here
    have complete' : ∀ part ∈ node.normalize.parts, part.Complete := by
      rw [node.parts_normalize]
      intro part mem
      obtain ⟨part, isPart, rfl⟩ := List.mem_map.mp mem
      exact Component.complete_normalize (complete part isPart)
    have entries : node.normalize.shown.filterMap Component.entry? =
        node.shown.filterMap Component.entry? := by
      rw [node.shown_normalize, List.filterMap_map]
      refine List.filterMap_congr fun part isShown => ?_
      have isPart := node.shown_perm.mem_iff.mp isShown
      exact Component.entry?_normalize fun child isChild =>
        ih part isPart child isChild (inside part isPart child isChild)
    rw [ofNode_eq here complete, ofNode_eq here' complete', shownAs, shownAs, entries, kind,
      position]
    rfl

end Normal

end PascalCompiler
