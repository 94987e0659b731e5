import Mathlib.Data.List.ReduceOption
import PascalCompiler.Proofs.Layout.Texts
import PascalCompiler.Proofs.Lexical.Translator
import PascalCompiler.Proofs.Script.Names
import PascalCompiler.Proofs.Tree.Everywhere

/-!
# Putting layable texts together

The text of a node is put together from the texts of its children and from the words and signs
of scripts. If the texts of the children are layable, so is the text of the node: parentheses
and braces are written in pairs, with phrases between the parentheses. The text has a zero
character if a string constant under the node has one, for there are none in the rest.

Some nodes, such as types and comments, leave nothing in a script.

## Main definitions

* `Node.HasZero`: there is a string constant with a zero character
* `Node.isSilent`: nodes without expressions under them
* `Lays`: a layable text of some nodes

## Main results

* `Lays.append`, `Lays.parens`, `Lays.braces`: texts put together
* `Lays.node`: a node with the text of its children
-/

namespace PascalCompiler

open Layout

/-! ### Nodes -/

/-- The nodes of values that may be missing. -/
def present {α : Type} (of : α → Node) (values : List (Option α)) : List Node :=
  values.flatMap fun value => (value.map of).toList

/-- Some string constant in the tree under the node has a zero character. -/
def Node.HasZero (root : Node) : Prop :=
  ∃ position value, root.Within (.expr (.text position value)) ∧ '\x00' ∈ value.toList

/-- The identifiers in the tree under the node are Pascal identifiers. -/
def Node.Spelled (alphabet : Ecma.Alphabet) (root : Node) : Prop :=
  ∀ ident : Ident, root.Within (.ident ident) → IsPascalIdentifier alphabet ident.name

/-- Is the node one that has no expressions under it? -/
def Node.isSilent : Node → Bool
  | .ident _ | .type _ | .param _ | .uses _ | .comment _ | .programHeader _ | .unitHeader _
  | .decl (.header _) => true
  | _ => false

/-- Is the node a string constant? -/
def Node.isText : Node → Bool
  | .expr (.text _ _) => true
  | _ => false

section Parts

variable {α : Type} {key : String} {aliases : List String} {needed : Bool} {of : α → Node}

@[simp] theorem nodes_optional (value : Option α) :
    (Component.optional key of value).nodes = (value.map of).toList := rfl

@[simp] theorem nodes_mandatory (value : Option α) :
    (Component.mandatory key of value).nodes = (value.map of).toList := rfl

@[simp] theorem nodes_child (value : Option Node) :
    (Component.child key aliases needed value).nodes = value.toList := rfl

@[simp] theorem nodes_text (value : String) :
    (Component.text key aliases needed value).nodes = [] := rfl

@[simp] theorem nodes_listOf (listing : Listing) (values : List (Option α)) :
    (Component.listOf key listing of values).nodes = present of values := by
  rw [present, ← List.filterMap_eq_flatMap_toList]
  exact List.filterMap_map

theorem present_cons (value : Option α) (values : List (Option α)) :
    present of (value :: values) = (value.map of).toList ++ present of values := rfl

@[simp] theorem mem_present {values : List (Option α)} {node : Node} :
    node ∈ present of values ↔ ∃ a, some a ∈ values ∧ of a = node := by
  simp [present]

end Parts

section Nodes

variable {root node child : Node}

theorem Node.within_of_mem_children (mem : child ∈ root.children) : root.Within child := by
  obtain ⟨part, isPart, isChild⟩ := List.mem_flatMap.mp mem
  exact Node.Within.root.child isPart isChild

/-- Zero characters are under the children of a node that is no string constant. -/
theorem Node.hasZero_iff (other : root.isText = false) :
    root.HasZero ↔ ∃ child ∈ root.children, child.HasZero := by
  constructor
  · rintro ⟨position, value, within, zero⟩
    rcases Node.within_iff.mp within with same | ⟨part, isPart, child, isChild, within⟩
    · rw [← same] at other
      cases other
    · exact ⟨child, List.mem_flatMap.mpr ⟨part, isPart, isChild⟩, position, value, within, zero⟩
  · rintro ⟨child, mem, position, value, within, zero⟩
    exact ⟨position, value, (Node.within_of_mem_children mem).trans within, zero⟩

theorem Node.hasZero_text {position : Position} {value : String} :
    (Node.expr (.text position value)).HasZero ↔ '\x00' ∈ value.toList := by
  constructor
  · rintro ⟨position', value', within, zero⟩
    rcases Node.within_iff.mp within with same | ⟨part, isPart, child, isChild, -⟩
    · cases same
      exact zero
    · obtain rfl := List.mem_singleton.mp isPart
      cases isChild
  · intro zero
    exact ⟨position, value, .root, zero⟩

/-- What is under a silent node is silent. -/
theorem isSilent_child (silent : root.isSilent) : ∀ child ∈ root.children, child.isSilent := by
  cases root with
  | program | unit | interfacePart | implementationPart | block | stmt | handler | expr | range =>
    cases silent
  | decl d =>
    cases d with
    | header h =>
      obtain ⟨position, - | result, name, params⟩ := h <;>
        simp [Node.children, Node.parts, Decl.parts, RoutineKind.parts, or_imp, forall_and,
          Node.isSilent]
    | _ => cases silent
  | type t => cases t <;> simp [Node.children, Node.parts, Node.isSilent]
  | _ => simp [Node.children, Node.parts, or_imp, forall_and, Node.isSilent]

theorem isSilent_option {α : Type} {of : α → Node} (silent : ∀ a, (of a).isSilent)
    (value : Option α) : ∀ node ∈ (value.map of).toList, node.isSilent := by
  cases value with
  | none => exact List.forall_mem_nil _
  | some a => exact List.forall_mem_singleton.mpr (silent a)

/-- There are no string constants under a silent node. -/
theorem not_hasZero_of_isSilent (silent : root.isSilent) : ¬root.HasZero := by
  rintro ⟨position, value, within, -⟩
  have all : ∀ node, root.Within node → node.isSilent := by
    intro node within
    -- down the path from the root
    induction within with
    | root => exact silent
    | child _ isPart isChild ih =>
      exact isSilent_child ih _ (List.mem_flatMap.mpr ⟨_, isPart, isChild⟩)
  cases all _ within

end Nodes

/-! ### Texts of nodes -/

/-- The text is layable if the identifiers in the nodes are Pascal identifiers, and has a zero
character if a string constant in the nodes has. -/
def Lays (alphabet : Ecma.Alphabet) (shape : Shape) (nodes : List Node) (text : String) : Prop :=
  (∀ node ∈ nodes, node.Spelled alphabet) →
    Layable shape text.toList ∧ ('\x00' ∈ text.toList ↔ ∃ node ∈ nodes, node.HasZero)

namespace Lays

variable {alphabet : Ecma.Alphabet} {shape : Shape} {nodes others : List Node}
  {text other : String}

theorem append (front : Lays alphabet shape nodes text) (back : Lays alphabet shape others other) :
    Lays alphabet shape (nodes ++ others) (text ++ other) := by
  intro spelled
  obtain ⟨spelledFront, spelledBack⟩ := List.forall_mem_append.mp spelled
  obtain ⟨first, zero⟩ := front spelledFront
  obtain ⟨second, zero'⟩ := back spelledBack
  rw [String.toList_append]
  refine ⟨first.append second, ?_⟩
  simp only [List.mem_append, zero, zero', or_and_right, exists_or]

/-- A text of its own, without zero characters. -/
theorem of_layable (layable : Layable shape text.toList) (noZero : '\x00' ∉ text.toList) :
    Lays alphabet shape [] text :=
  fun _ => ⟨layable, iff_of_false noZero (by simp)⟩

theorem of_ordinary (ordinary : text.toList.all isOrdinary) : Lays alphabet shape [] text := by
  have each := List.all_eq_true.mp ordinary
  exact of_layable (layable_of_ordinary each) fun mem => absurd (each _ mem) (by decide)

theorem word_append (back : Lays alphabet shape nodes text) (word : String)
    (ordinary : word.toList.all isOrdinary) : Lays alphabet shape nodes (word ++ text) :=
  (of_ordinary ordinary).append back

theorem append_word (front : Lays alphabet shape nodes text) (word : String)
    (ordinary : word.toList.all isOrdinary) : Lays alphabet shape nodes (text ++ word) := by
  have both := front.append (of_ordinary ordinary)
  rwa [List.append_nil] at both

theorem parens (inner : Lays alphabet .phrase nodes text) :
    Lays alphabet shape nodes ("(" ++ text ++ ")") := by
  intro spelled
  obtain ⟨layable, zero⟩ := inner spelled
  have same : ("(" ++ text ++ ")").toList = '(' :: (text.toList ++ [')']) := by simp
  rw [same]
  exact ⟨layable.parens, by simpa using zero⟩

theorem braces (inner : Lays alphabet .passage nodes text) :
    Lays alphabet .passage nodes ("\x7b" ++ text ++ "\x7d") := by
  intro spelled
  obtain ⟨layable, zero⟩ := inner spelled
  have same : ("\x7b" ++ text ++ "\x7d").toList = '\x7b' :: (text.toList ++ ['\x7d']) := by simp
  rw [same]
  exact ⟨layable.braces, by simpa using zero⟩

theorem append_semicolon (front : Lays alphabet .passage nodes text) :
    Lays alphabet .passage nodes (text ++ ";") := by
  intro spelled
  obtain ⟨layable, zero⟩ := front spelled
  rw [String.toList_append]
  exact ⟨layable.append .semicolon, by simpa using zero⟩

/-- Silent nodes beside the others add nothing to the text. -/
theorem widen (lays : Lays alphabet shape nodes text) (inner : ∀ node ∈ nodes, node ∈ others)
    (outer : ∀ node ∈ others, node ∈ nodes ∨ node.isSilent) : Lays alphabet shape others text := by
  intro spelled
  obtain ⟨layable, zero⟩ := lays fun node mem => spelled node (inner node mem)
  refine ⟨layable, zero.trans ⟨?_, ?_⟩⟩
  · rintro ⟨node, mem, has⟩
    exact ⟨node, inner node mem, has⟩
  · rintro ⟨node, mem, has⟩
    rcases outer node mem with mem | silent
    · exact ⟨node, mem, has⟩
    · exact absurd has (not_hasZero_of_isSilent silent)

theorem congr (lays : Lays alphabet shape nodes text)
    (same : ∀ node, node ∈ nodes ↔ node ∈ others) : Lays alphabet shape others text :=
  lays.widen (fun node => (same node).mp) fun node mem => .inl ((same node).mpr mem)

/-- Silent nodes need no text. -/
theorem silent (silent : ∀ node ∈ nodes, node.isSilent) : Lays alphabet shape nodes "" :=
  (of_ordinary rfl).widen (List.forall_mem_nil _) fun node mem => .inr (silent node mem)

theorem append_silent (lays : Lays alphabet shape nodes text)
    (silent : ∀ node ∈ others, node.isSilent) : Lays alphabet shape (nodes ++ others) text :=
  lays.widen (fun _ => List.mem_append_left others) fun node mem =>
    (List.mem_append.mp mem).imp_right (silent node)

theorem silent_append (lays : Lays alphabet shape nodes text)
    (silent : ∀ node ∈ others, node.isSilent) : Lays alphabet shape (others ++ nodes) text :=
  lays.widen (fun _ => List.mem_append_right others) fun node mem =>
    (List.mem_append.mp mem).symm.imp_right (silent node)

/-- A silent node that may be missing. -/
theorem append_option {α : Type} (lays : Lays alphabet shape nodes text) (of : α → Node)
    (silent : ∀ a, (of a).isSilent) (value : Option α) :
    Lays alphabet shape (nodes ++ (value.map of).toList) text :=
  lays.append_silent (isSilent_option silent value)

theorem option_append {α : Type} (lays : Lays alphabet shape nodes text) (of : α → Node)
    (silent : ∀ a, (of a).isSilent) (value : Option α) :
    Lays alphabet shape ((value.map of).toList ++ nodes) text :=
  lays.silent_append (isSilent_option silent value)

/-- A node has the text of its children. -/
theorem node {root : Node} (lays : Lays alphabet shape nodes text)
    (areNodes : root.children = nodes) (other : root.isText = false) :
    Lays alphabet shape [root] text := by
  subst areNodes
  intro spelled
  have spelled := spelled root List.mem_cons_self
  obtain ⟨layable, zero⟩ := lays fun child mem ident within =>
    spelled ident ((Node.within_of_mem_children mem).trans within)
  refine ⟨layable, zero.trans ?_⟩
  simp only [List.mem_singleton, exists_eq_left, Node.hasZero_iff other]

/-- A text in parentheses behind another. -/
theorem append_parens (front : Lays alphabet shape nodes text)
    (inner : Lays alphabet .phrase others other) :
    Lays alphabet shape (nodes ++ others) (text ++ "(" ++ other ++ ")") := by
  have both : Lays alphabet shape (nodes ++ others) _ := front.append inner.parens
  rwa [← String.append_assoc, ← String.append_assoc] at both

/-- Texts with commas between them, one at a time. -/
theorem commas_cons {texts : List String} (first : Lays alphabet shape nodes text)
    (rest : Lays alphabet shape others (Lexical.commas texts)) :
    Lays alphabet shape (nodes ++ others) (Lexical.commas (text :: texts)) := by
  cases texts with
  | nil => simpa [Lexical.commas] using first.append rest
  | cons second texts => exact (first.append_word "," rfl).append rest

/-! ### Templates -/

variable {more : List Node} {first second : String}

theorem semicolon : Lays alphabet .passage [] ";" :=
  of_layable .semicolon (by simp)

theorem call (callee : Lays alphabet .passage nodes text)
    (args : Lays alphabet .phrase others other) :
    Lays alphabet .passage (nodes ++ others) (text ++ "(" ++ other ++ ");") := by
  have regrouped : text ++ "(" ++ other ++ ");" = text ++ "(" ++ other ++ ")" ++ ";" :=
    String.toList_inj.mp (by simp)
  rw [regrouped]
  exact (callee.append_parens args).append_semicolon

theorem define (name : Lays alphabet .passage nodes text)
    (value : Lays alphabet .passage others other) :
    Lays alphabet .passage (nodes ++ others) ("var " ++ text ++ "=" ++ other ++ ";") :=
  (((name.word_append "var " rfl).append_word "=" rfl).append value).append_semicolon

theorem ifThen (condition : Lays alphabet .phrase nodes text)
    (onTrue : Lays alphabet .passage others first) (onFalse : Lays alphabet .passage more second) :
    Lays alphabet .passage (nodes ++ others ++ more)
      ("if (" ++ text ++ ") " ++ first ++ second) := by
  have regrouped : "if (" ++ text ++ ") " = "if " ++ "(" ++ text ++ ")" ++ " " :=
    String.toList_inj.mp (by simp)
  rw [regrouped]
  have tested : Lays alphabet .passage nodes ("if " ++ "(" ++ text ++ ")") :=
    (of_ordinary rfl).append_parens condition
  exact ((tested.append_word " " rfl).append onTrue).append onFalse

theorem tryCatch (body : Lays alphabet .passage nodes text)
    (handlers : Lays alphabet .passage others other) :
    Lays alphabet .passage (nodes ++ others)
      ("try \x7b" ++ text ++ "\x7d catch ($e) \x7b" ++ other ++ "\x7d") := by
  have regrouped : "try \x7b" ++ text ++ "\x7d catch ($e) \x7b" ++ other ++ "\x7d" =
      "try " ++ ("\x7b" ++ text ++ "\x7d") ++ (" catch " ++ "(" ++ "$e" ++ ")") ++ " " ++
        ("\x7b" ++ other ++ "\x7d") := String.toList_inj.mp (by simp)
  rw [regrouped]
  have bound : Lays alphabet .passage [] (" catch " ++ "(" ++ "$e" ++ ")") :=
    (of_ordinary rfl).append_parens (of_ordinary rfl)
  have front := (body.braces.word_append "try " rfl).append bound
  rw [List.append_nil] at front
  exact (front.append_word " " rfl).append handlers.braces

theorem tryFinally (body : Lays alphabet .passage nodes text)
    (cleanup : Lays alphabet .passage others other) :
    Lays alphabet .passage (nodes ++ others)
      ("try \x7b" ++ text ++ "\x7d finally \x7b" ++ other ++ "\x7d") := by
  have regrouped : "try \x7b" ++ text ++ "\x7d finally \x7b" ++ other ++ "\x7d" =
      "try " ++ ("\x7b" ++ text ++ "\x7d") ++ " finally " ++ ("\x7b" ++ other ++ "\x7d") :=
    String.toList_inj.mp (by simp)
  rw [regrouped]
  exact ((body.braces.word_append "try " rfl).append_word " finally " rfl).append cleanup.braces

end Lays

end PascalCompiler
