import Mathlib.Data.List.Forall2
import PascalCompiler.Outline.Node
import PascalCompiler.Proofs.Tree.WellFormed

/-!
# Outlines by parts

The outline of a node with a valid position has an entry for the position and one for every
part of the node that holds something. Labels are the names of parts, begun by a capital.
Outlines can so be treated part by part, without looking at the kinds of nodes again.

## Main definitions

* `Component.entry?`: the entry for a part of a node
* `Node.shown`: the parts of a node in the order in which outlines have them

## Main results

* `Outline.ofNode_eq`: the outline of a node from the entries for its parts
* `Node.shown_perm`: all parts are shown
-/

namespace PascalCompiler

open Outline

/-! ### Entries -/

/-- The label that shows what documents have under a name. -/
def Outline.labelOf (key : String) : String :=
  String.ofList (Kind.capitalized true key.toList)

namespace Component

/-- The name of a part in documents. -/
def key : Component → String
  | .child key _ _ _ | .list key _ _ | .text key _ _ _ | .integer key _ => key
  | .comments _ => "comments"

/-- The label of a part in outlines. -/
def label (part : Component) : String :=
  labelOf part.key

/-- The outline of a part, if it holds something. -/
def outline? : Component → Option Outline
  | .child _ _ _ node => node.bind ofNode
  | .list _ _ nodes => Outline.list (firstType Node.kind nodes) (nodes.map (·.bind ofNode))
  | .text _ _ _ value => (Field.text "" value).outline
  | .integer _ value => (Field.number "" value).outline
  | .comments value => (commentsField value).outline

/-- The entry for a part, if it holds something. -/
def entry? (part : Component) : Option (String × Outline) :=
  part.outline?.map (part.label, ·)

end Component

/-- The comments of a program, taken as parts. -/
def ProgramComments.parts (comments : ProgramComments) : List Component :=
  [.optional "pre" .comment comments.pre, .optional "uses" .comment comments.uses,
    .optional "end" .comment comments.final, .optional "post" .comment comments.post]

/-- The parts of a node in the order in which outlines have them. The result type of a function
stands before its block. -/
def Node.shown : Node → List Component
  | .decl (.routine value) =>
    .mandatory "identifier" .ident value.name :: .listOf "params" .plain .param value.params ::
      (value.kind.parts ++ [.optional "block" .block value.block])
  | node => node.parts

/-- All parts of a node are shown. -/
theorem Node.shown_perm (node : Node) : node.shown.Perm node.parts := by
  cases node with
  | decl d =>
    cases d with
    | routine value => exact ((List.perm_append_singleton _ _).cons _).cons _
    | _ => exact .rfl
  | _ => exact .rfl

/-! ### Fields and parts -/

/-- The field has the entry of the part. -/
def Field.Shows (field : Field) (part : Component) : Prop :=
  field.entry? = part.entry?

section Shows

variable {α : Type} {of : α → Node} {outline : α → Option Outline} {label key : String}

theorem shows_child {aliases : List String} {needed : Bool} {value : Option α}
    (isLabel : label = labelOf key)
    (outlines : ∀ a, ofNode (of a) = outline a) :
    (Field.part label value (value.bind outline)).Shows
      (.child key aliases needed (value.map of)) := by
  obtain rfl := isLabel
  cases value with
  | none => rfl
  | some a => exact congrArg (Option.map _) (outlines a).symm

theorem firstType_map {kind : α → Kind} (kinds : ∀ a, (of a).kind = kind a)
    (values : List (Option α)) :
    firstType Node.kind (values.map (·.map of)) = firstType kind values := by
  rcases values with _ | ⟨_ | a, values⟩
  · rfl
  · rfl
  · exact congrArg Kind.elementType (kinds a)

theorem shows_listOf {listing : Listing} {kind : α → Kind} {values : List (Option α)}
    (isLabel : label = labelOf key)
    (outlines : ∀ a, ofNode (of a) = outline a) (kinds : ∀ a, (of a).kind = kind a) :
    (Field.list label (firstType kind values) (values.map (·.bind outline))).Shows
      (.listOf key listing of values) := by
  obtain rfl := isLabel
  have items : (values.map (·.map of)).map (·.bind ofNode) = values.map (·.bind outline) := by
    rw [List.map_map]
    refine List.map_congr_left fun value _ => ?_
    cases value with
    | none => rfl
    | some a => exact outlines a
  rw [Field.Shows, Component.entry?, Component.listOf, Component.outline?, items,
    firstType_map kinds]
  rfl

/-- The elements of a list without gaps are all of the kind of the first. -/
theorem shows_listOf_of_full {listing : Listing} {kind : Kind} {values : List (Option α)}
    (isLabel : label = labelOf key)
    (outlines : ∀ a, ofNode (of a) = outline a) (kinds : ∀ a, (of a).kind = kind)
    (complete : (Component.listOf key listing of values).Complete) :
    (Field.list label kind.elementType (values.map (·.bind outline))).Shows
      (.listOf key listing of values) := by
  have shows : (Field.list label (firstType (fun _ => kind) values)
      (values.map (·.bind outline))).Shows (.listOf key listing of values) :=
    shows_listOf isLabel outlines kinds
  rcases values with _ | ⟨_ | a, values⟩
  · exact shows
  · exact absurd List.mem_cons_self complete.1
  · exact shows

theorem shows_text {aliases : List String} {needed : Bool} {value : String}
    (isLabel : label = labelOf key) :
    (Field.text label value).Shows (.text key aliases needed value) := by
  obtain rfl := isLabel
  rw [Field.Shows, Component.entry?, Component.outline?, Field.text, Field.text]
  split <;> rfl

theorem shows_number {value : Int}
    (isLabel : label = labelOf key) :
    (Field.number label value).Shows (.integer key value) := by
  obtain rfl := isLabel
  rw [Field.Shows, Component.entry?, Component.outline?, Field.number, Field.number]
  split <;> rfl

theorem filterMap_eq_of_forall₂ {α β γ : Type} {f : α → Option γ} {g : β → Option γ} {as : List α}
    {bs : List β} (same : List.Forall₂ (fun a b => f a = g b) as bs) :
    as.filterMap f = bs.filterMap g := by
  induction same with
  | nil => rfl
  | cons first _ ih => rw [List.filterMap_cons, List.filterMap_cons, first, ih]

end Shows

/-! ### Lists and options -/

theorem ofExpr?_eq (e : Option Expr) : ofExpr? e = e.bind ofExpr := by
  cases e <;> rfl

theorem ofExprs_eq (list : List (Option Expr)) : ofExprs list = list.map (·.bind ofExpr) := by
  induction list with
  | nil => rfl
  | cons e rest ih => rw [ofExprs, ih, ofExpr?_eq, List.map_cons]

theorem ofElements_eq (list : List (Option Element)) :
    ofElements list = list.map (·.bind ofElement) := by
  induction list with
  | nil => rfl
  | cons e rest ih =>
    rw [ofElements, ih]
    cases e <;> rfl

theorem ofStmt?_eq (s : Option Stmt) : ofStmt? s = s.bind ofStmt := by
  cases s <;> rfl

theorem ofStmts_eq (list : List (Option Stmt)) : ofStmts list = list.map (·.bind ofStmt) := by
  induction list with
  | nil => rfl
  | cons s rest ih => rw [ofStmts, ih, ofStmt?_eq, List.map_cons]

theorem ofBlock?_eq (b : Option Block) : ofBlock? b = b.bind ofBlock := by
  cases b <;> rfl

theorem ofDecls_eq (list : List (Option Decl)) : ofDecls list = list.map (·.bind ofDecl) := by
  induction list with
  | nil => rfl
  | cons d rest ih =>
    rw [ofDecls, ih]
    cases d <;> rfl

theorem Element.ofNode_node (e : Element) : ofNode e.node = ofElement e := by
  cases e <;> rfl

/-! ### Nodes -/

theorem shows_handlers (handlers : Option Handlers) :
    (Field.part "Handlers" handlers (ofHandlers? handlers)).Shows (.handlers handlers) := by
  rcases handlers with _ | (body | clause)
  · rfl
  · have shows : (Field.list "Handlers" (firstType Stmt.kind body) (ofStmts body)).Shows
        (.listOf "handlers" .bracketed .stmt body) := by
      rw [ofStmts_eq]
      exact shows_listOf rfl (fun _ => rfl) (fun _ => rfl)
    exact shows
  · have shows : (Field.part "Handlers" (some clause) ((some clause).bind ofClause)).Shows
        (.child "handlers" [] false ((some clause).map .handler)) :=
      shows_child rfl fun _ => rfl
    exact shows

theorem shows_comments (comments : ProgramComments) :
    (commentsField comments).Shows (.comments comments) := by
  have isLabel : labelOf "comments" = "Comments" := rfl
  rw [Field.Shows, Component.entry?, Component.label, Component.key, isLabel, Component.outline?,
    commentsField]
  split <;> rfl

/-- The comments of a program are shown together, if there are any. -/
theorem outline?_comments (comments : ProgramComments) :
    (Component.comments comments).outline? =
      if comments = {} then none
      else some (.branch (qualified "ProgramComments" ++ "\x7b")
        (comments.parts.filterMap Component.entry?)) := by
  have entries : [commentField "Pre" comments.pre, commentField "Uses" comments.uses,
      commentField "End" comments.final, commentField "Post" comments.post].filterMap
        Field.entry? = comments.parts.filterMap Component.entry? :=
    filterMap_eq_of_forall₂ (.cons (shows_child rfl fun _ => rfl)
      (.cons (shows_child rfl fun _ => rfl) (.cons (shows_child rfl fun _ => rfl)
        (.cons (shows_child rfl fun _ => rfl) .nil))))
  have absent : [commentField "Pre" comments.pre, commentField "Uses" comments.uses,
      commentField "End" comments.final, commentField "Post" comments.post].all
        (!·.present) = decide (comments = {}) := by
    rcases comments with ⟨_ | _, _ | _, _ | _, _ | _⟩ <;> rfl
  rw [Component.outline?, commentsField, entries]
  by_cases none : comments = {}
  · rw [if_pos (absent.trans (decide_eq_true none)), if_pos none]
  · rw [if_neg (by rw [absent, decide_eq_false none]; exact Bool.false_ne_true), if_neg none]

theorem record_eq {name : String} {position : Position} {attached : Bool} {fields : List Field}
    {parts : List Component} (valid : position.isValid)
    (shows : List.Forall₂ Field.Shows fields parts) :
    record name position attached fields =
      some (.branch ("&" ++ qualified name ++ "\x7b")
        (("Span", .leaf position.render) :: parts.filterMap Component.entry?)) := by
  have known : position ≠ .unknown := by
    rintro rfl
    cases valid
  rw [record, span?, if_pos valid, filterMap_eq_of_forall₂ shows]
  simp [known]

/-- The outline that a node has if its position is valid: an entry for the position and the
entries for the parts. -/
def shownAs (kind : Kind) (position : Position) (parts : List Component) : Outline :=
  .branch ("&" ++ qualified kind.recordName ++ "\x7b")
    (("Span", .leaf position.render) :: parts.filterMap Component.entry?)

theorem ofExpr_eq {e : Expr} (valid : e.position.isValid) :
    ofExpr e = some (shownAs e.kind e.position e.parts) := by
  cases e with
  | text => exact record_eq valid (.cons (shows_text rfl) .nil)
  | control | integer => exact record_eq valid (.cons (shows_number rfl) .nil)
  | parens =>
    rw [ofExpr, ofExpr?_eq]
    exact record_eq valid (.cons (shows_child rfl fun _ => rfl) .nil)
  | binary =>
    rw [ofExpr, ofExpr?_eq, ofExpr?_eq]
    exact record_eq valid (.cons (shows_text rfl) (.cons (shows_child rfl fun _ => rfl)
      (.cons (shows_child rfl fun _ => rfl) .nil)))
  | call =>
    rw [ofExpr, ofExprs_eq]
    exact record_eq valid (.cons (shows_child rfl fun _ => rfl)
      (.cons (shows_listOf rfl (fun _ => rfl) fun _ => rfl) .nil))
  | setOf =>
    rw [ofExpr, ofElements_eq]
    refine record_eq valid (.cons (shows_listOf rfl Element.ofNode_node ?_) .nil)
    intro e
    cases e <;> rfl

theorem ofStmt_eq {s : Stmt} (valid : s.position.isValid) :
    ofStmt s = some (shownAs s.kind s.position s.parts) := by
  cases s with
  | assign =>
    exact record_eq valid (.cons (shows_child rfl fun _ => rfl) (.cons (shows_text rfl)
      (.cons (shows_child rfl fun _ => rfl) .nil)))
  | call =>
    rw [ofStmt, ofExprs_eq]
    exact record_eq valid (.cons (shows_child rfl fun _ => rfl)
      (.cons (shows_listOf rfl (fun _ => rfl) fun _ => rfl) .nil))
  | compound value =>
    obtain ⟨position, body⟩ := value
    rw [ofStmt, ofCompound, ofStmts_eq]
    exact record_eq valid (.cons (shows_listOf rfl (fun _ => rfl) fun _ => rfl) .nil)
  | ifThen =>
    rw [ofStmt, ofStmt?_eq, ofStmt?_eq]
    exact record_eq valid (.cons (shows_child rfl fun _ => rfl)
      (.cons (shows_child rfl fun _ => rfl) (.cons (shows_child rfl fun _ => rfl) .nil)))
  | tryExcept _ _ handlers =>
    rw [ofStmt, ofStmts_eq]
    exact record_eq valid (.cons (shows_listOf rfl (fun _ => rfl) fun _ => rfl)
      (.cons (shows_handlers handlers) .nil))
  | tryFinally =>
    rw [ofStmt, ofStmts_eq, ofStmts_eq]
    exact record_eq valid (.cons (shows_listOf rfl (fun _ => rfl) fun _ => rfl)
      (.cons (shows_listOf rfl (fun _ => rfl) fun _ => rfl) .nil))

theorem shows_result (kind : RoutineKind) :
    List.Forall₂ Field.Shows (resultFields kind) kind.parts := by
  cases kind with
  | procedure => exact .nil
  | function => exact .cons (shows_child rfl fun _ => rfl) .nil

theorem ofDecl_eq {d : Decl} (valid : d.position.isValid)
    (complete : ∀ part ∈ d.parts, part.Complete) :
    ofDecl d = some (shownAs d.kind d.position (Node.decl d).shown) := by
  cases d with
  | var value =>
    exact record_eq valid (.cons
      (shows_listOf_of_full rfl (fun _ => rfl) (fun _ => rfl) (complete _ (.head _)))
      (.cons (shows_child rfl fun _ => rfl) (.cons (shows_child rfl fun _ => rfl) .nil)))
  | vars =>
    exact record_eq valid (.cons
      (shows_listOf_of_full rfl (fun _ => rfl) (fun _ => rfl) (complete _ (.head _))) .nil)
  | const value =>
    exact record_eq valid (.cons (shows_child rfl fun _ => rfl)
      (.cons (shows_child rfl fun _ => rfl) (.cons (shows_child rfl fun _ => rfl) .nil)))
  | consts =>
    exact record_eq valid (.cons
      (shows_listOf_of_full rfl (fun _ => rfl) (fun _ => rfl) (complete _ (.head _))) .nil)
  | header value =>
    exact record_eq valid (.cons (shows_child rfl fun _ => rfl)
      (.cons (shows_listOf rfl (fun _ => rfl) fun _ => rfl) (shows_result value.kind)))
  | routine value =>
    obtain ⟨position, kind, name, params, block, scope⟩ := value
    rw [ofDecl, ofRoutine, ofBlock?_eq]
    refine record_eq valid (.cons (shows_child rfl fun _ => rfl)
      (.cons (shows_listOf rfl (fun _ => rfl) fun _ => rfl) ?_))
    exact List.rel_append (shows_result kind) (.cons (shows_child rfl fun _ => rfl) .nil)

/-- The outline of a node with a valid position and no gaps. -/
theorem ofNode_eq {node : Node} (valid : node.position.isValid)
    (complete : ∀ part ∈ node.parts, part.Complete) :
    ofNode node = some (shownAs node.kind node.position node.shown) := by
  cases node with
  | program f =>
    exact record_eq valid (.cons (shows_child rfl fun _ => rfl)
      (.cons (shows_child rfl fun _ => rfl) (.cons (shows_child rfl fun _ => rfl)
        (.cons (shows_comments f.comments) .nil))))
  | unit f =>
    exact record_eq valid (.cons (shows_child rfl fun _ => rfl)
      (.cons (shows_child rfl fun _ => rfl) (.cons (shows_child rfl fun _ => rfl) .nil)))
  | programHeader h | unitHeader h =>
    exact record_eq valid (.cons (shows_child rfl fun _ => rfl) .nil)
  | interfacePart p | implementationPart p =>
    rw [ofNode, ofUnitPart, ofDecls_eq]
    exact record_eq valid (.cons (shows_child rfl fun _ => rfl)
      (.cons (shows_listOf rfl (fun _ => rfl) fun _ => rfl) .nil))
  | uses u =>
    exact record_eq valid (.cons
      (shows_listOf_of_full rfl (fun _ => rfl) (fun _ => rfl) (complete _ (.head _))) .nil)
  | comment c | ident c => exact record_eq valid (.cons (shows_text rfl) .nil)
  | type t =>
    cases t with
    | inbuilt => exact record_eq valid (.cons (shows_text rfl) .nil)
    | named => exact record_eq valid (.cons (shows_child rfl fun _ => rfl) .nil)
  | param group =>
    exact record_eq valid (.cons
      (shows_listOf_of_full rfl (fun _ => rfl) (fun _ => rfl) (complete _ (.head _)))
      (.cons (shows_child rfl fun _ => rfl) .nil))
  | block b =>
    obtain ⟨position, decls, body⟩ := b
    rw [ofNode, ofBlock, ofDecls_eq]
    exact record_eq valid (.cons (shows_listOf rfl (fun _ => rfl) fun _ => rfl)
      (.cons (shows_child rfl fun _ => rfl) .nil))
  | decl d => exact ofDecl_eq valid complete
  | stmt s => exact ofStmt_eq valid
  | handler clause =>
    obtain ⟨position, name, type, body⟩ := clause
    rw [ofNode, ofClause, ofStmt?_eq]
    exact record_eq valid (.cons (shows_child rfl fun _ => rfl)
      (.cons (shows_child rfl fun _ => rfl) (.cons (shows_child rfl fun _ => rfl) .nil)))
  | expr e => exact ofExpr_eq valid
  | range r =>
    obtain ⟨position, start, stop⟩ := r
    rw [ofNode, ofRange, ofExpr?_eq, ofExpr?_eq]
    exact record_eq valid (.cons (shows_child rfl fun _ => rfl)
      (.cons (shows_child rfl fun _ => rfl) .nil))

end PascalCompiler
