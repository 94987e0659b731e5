import Mathlib.Data.List.Chain
import PascalCompiler.Proofs.Generation.Stack
import PascalCompiler.Proofs.Tree.WellFormed

/-!
# The trail of an error

An error of the generator carries the kinds of the nodes that were being visited. They are
the kinds along a path in the tree, from the file down to the place of the error: every
function of the generator enters a node only from its parent. The node at fault is the last
one of the path or one of its children, for constants, ranges and handler clauses are
refused without being entered. A scope is looked up only for a call without arguments, and
not found only if no node of the path has one.

## Main definitions

* `Descends`: a list of nodes that goes down a tree
* `Context.Path`: the visited nodes on the way from the root to a node
* `GenerationError.EndsAt`: how an error fits to the end of a path
* `Generation.Located`: every error of a computation lies on a path

## Main results

* `Context.Path.descends`: the visited nodes go down the tree
* `Generation.located_expr`, `Generation.located_stmt`, `Generation.located_decl`: errors of
  expressions, statements and declarations lie on a path
* `File.trail_descends`: errors of files do, and the stack of visited nodes is kept
-/

namespace PascalCompiler

/-! ### Going down a tree -/

/-- The nodes start at the root, and each is a child of the one before. -/
structure Descends (root : Node) (chain : List Node) : Prop where
  start : chain.head? = some root
  steps : chain.IsChain fun outer inner => inner ∈ outer.children

/-- The context of a node that is reached from the root by entering children. -/
inductive Context.Path (root : Node) : Context → Node → Prop where
  | start : Path root (.root root) root
  | enter {context : Context} {outer inner : Node} (path : Path root context outer)
      (isChild : inner ∈ outer.children) : Path root (context.enter inner) inner

section Path

variable {root here : Node} {context : Context}

theorem Context.Path.head? (path : context.Path root here) : context.path.head? = some here := by
  cases path <;> rfl

/-- The visited nodes, the root first, go down the tree. -/
theorem Context.Path.descends (path : context.Path root here) :
    Descends root context.path.reverse := by
  induction path with
  | start => exact ⟨rfl, .singleton root⟩
  | @enter context outer inner path isChild ih =>
    constructor
    · calc (context.enter inner).path.reverse.head?
        _ = (context.path.reverse ++ [inner]).head? := by rw [Context.enter, List.reverse_cons]
        _ = some root := by rw [List.head?_append, ih.start, Option.some_or]
    · -- innermost first, the new node stands in front of its parent
      have steps := List.isChain_reverse.mp ih.steps
      apply List.isChain_reverse.mpr
      refine steps.cons fun parent isHead => ?_
      rw [path.head?] at isHead
      cases isHead
      exact isChild

theorem Context.Path.getLast? (path : context.Path root here) :
    context.path.reverse.getLast? = some here := by
  rw [List.getLast?_reverse, path.head?]

end Path

namespace Node

variable {α : Type} {parent : Node} {of : α → Node} {key : String}

/-- A part that is there is a child. -/
theorem mem_children_of_mem {aliases : List String} {needed : Bool} {value : Option α}
    (isPart : .child key aliases needed (value.map of) ∈ parent.parts) :
    ∀ a ∈ value, of a ∈ parent.children := by
  rintro a rfl
  exact List.mem_flatMap.mpr ⟨_, isPart, List.mem_singleton_self _⟩

/-- The items of a list are children. -/
theorem mem_children_of_mem_list {listing : Listing} {values : List (Option α)}
    (isPart : .listOf key listing of values ∈ parent.parts) :
    ∀ value ∈ values, ∀ a ∈ value, of a ∈ parent.children := by
  rintro value mem a rfl
  refine List.mem_flatMap.mpr ⟨_, isPart, ?_⟩
  exact List.mem_filterMap.mpr ⟨some (of a), List.mem_map.mpr ⟨some a, mem, rfl⟩, rfl⟩

end Node

/-! ### Errors on a path -/

namespace GenerationError

/-- The kinds of the nodes that were being visited, the root first. -/
def trace : GenerationError → List Kind
  | .unsupported _ trace _ | .invalidValue _ trace _ | .noScope trace => trace

/-- The node at fault is the last node or a child of it. A name without a scope is that of a
call without arguments, and no node at all has a scope. -/
def EndsAt (chain : List Node) : GenerationError → Prop
  | .unsupported node _ _ | .invalidValue node _ _ =>
    ∃ last culprit, chain.getLast? = some last ∧ node = some culprit ∧
      (culprit = last ∨ culprit ∈ last.children)
  | .noScope _ =>
    (∃ position target, chain.getLast? = some (.expr (.call position target []))) ∧
      ∀ node ∈ chain, node.scope = none

end GenerationError

namespace Generation

/-- Every error of the computation lies on a path from the root. -/
def Located {α : Type} (root : Node) (result : Except GenerationError α) : Prop :=
  ∀ error, result = .error error →
    ∃ chain, Descends root chain ∧ error.trace = chain.map Node.kind ∧ error.EndsAt chain

namespace Located

variable {α β : Type} {root here : Node} {context : Context}

theorem pure {a : α} : Located root (answer context (Pure.pure a)) :=
  fun _ same => nomatch same

theorem bind {descent : Descent α} {next : α → Descent β}
    (first : Located root (answer context descent))
    (rest : ∀ a, Located root (answer context (next a))) :
    Located root (answer context (descent >>= next)) := by
  rw [answer_bind]
  cases result : answer context descent with
  | error error =>
    -- the first part fails, and the rest is not reached
    intro other same
    cases same
    exact first error result
  | ok a => exact rest a

theorem visit {node : Node} {descent : Descent α}
    (inside : Located root (answer (context.enter node) descent)) :
    Located root (answer context (Visiting.visit node descent)) :=
  inside

/-- The kind of the parent can always be told. -/
theorem parentIs {kind : Kind} : Located root (answer context (Generation.parentIs kind)) :=
  fun _ same => nomatch same

/-- An error with the trail of the context, about the current node or a child of it. -/
theorem error (path : context.Path root here) {error : GenerationError}
    (traced : error.trace = context.trace) (ends : error.EndsAt context.path.reverse) :
    Located root (.error error : Except GenerationError α) := by
  intro other same
  cases same
  exact ⟨_, path.descends, traced, ends⟩

theorem missing (path : context.Path root here) {part : Part} :
    Located root (answer context (Generation.missing part : Descent α)) :=
  .error path rfl ⟨here, here, path.getLast?, path.head?, .inl rfl⟩

theorem unsupported (path : context.Path root here) {node : Node} {reason : Reason}
    (near : node = here ∨ node ∈ here.children) :
    Located root (answer context (Generation.unsupported node reason : Descent α)) :=
  .error path rfl ⟨here, node, path.getLast?, rfl, near⟩

/-- The scope of a call without arguments is missing only if there is none on the path. -/
theorem scope {position : Position} {target : Option Ident}
    (path : context.Path root (.expr (.call position target []))) :
    Located root (answer context (Visiting.look Context.scope)) := by
  rw [answer_look, Context.scope]
  cases found : context.scope? with
  | some scope => exact fun _ same => nomatch same
  | none =>
    -- the search went through all visited nodes
    have unscoped := List.findSome?_eq_none_iff.mp found
    refine .error path rfl ⟨⟨position, target, path.getLast?⟩, fun node mem => ?_⟩
    exact unscoped node (List.mem_reverse.mp mem)

end Located

/-! ### Names -/

section Names

variable {root here : Node} {context : Context}

theorem located_nameOf (path : context.Path root here) (ident : Option Ident) :
    Located root (answer context (nameOf ident)) := by
  cases ident with
  | none => exact .missing path
  | some ident =>
    rw [nameOf]
    split
    · exact .missing path
    · exact .pure

theorem located_namesOf (path : context.Path root here) (idents : List (Option Ident)) :
    Located root (answer context (namesOf idents)) := by
  induction idents with
  | nil => exact .pure
  | cons ident rest ih => exact .bind (located_nameOf path ident) fun _ => .bind ih fun _ => .pure

theorem located_callTarget (path : context.Path root here) (target : Option Ident)
    (isChild : ∀ ident ∈ target, .ident ident ∈ here.children) :
    Located root (answer context (callTarget target)) := by
  cases target with
  | none => exact .missing path
  | some ident =>
    have inside := path.enter (isChild ident rfl)
    exact .visit (.bind (located_nameOf inside (some ident)) fun _ => .pure)

theorem located_assignmentTarget (path : context.Path root here) (target : Option Ident) :
    Located root (answer context (assignmentTarget target)) := by
  cases target with
  | none => exact .missing path
  | some ident => exact located_nameOf path (some ident)

end Names

/-! ### Expressions -/

mutual

/-- Errors of an expression lie on a path, if the expression is under the current node. -/
theorem located_expr {root here : Node} {context : Context} (path : context.Path root here) :
    ∀ e : Expr, .expr e ∈ here.children → Located root (answer context (expr e))
  | .text _ _, _ | .integer _ _, _ => by
    rw [expr]
    exact .pure
  | .control position code, isChild => by
    rw [expr]
    cases controlCode code with
    | ok number => exact .pure
    | error reason =>
      -- a constant is not entered, so it is a child of the last node
      exact .error path rfl ⟨here, _, path.getLast?, rfl, .inr isChild⟩
  | .parens position inner, isChild => by
    have inside := path.enter isChild
    rw [expr]
    apply Located.visit
    exact .bind (located_expr? inside inner (Node.mem_children_of_mem (.head _))) fun _ => .pure
  | .binary position op left right, isChild => by
    have inside := path.enter isChild
    rw [expr]
    apply Located.visit
    split
    · exact .unsupported inside (.inl rfl)
    · refine .bind (located_expr? inside left ?_) fun _ =>
        .bind (located_expr? inside right ?_) fun _ => .pure
      · exact Node.mem_children_of_mem (.tail _ (.head _))
      · exact Node.mem_children_of_mem (.tail _ (.tail _ (.head _)))
  | .call position target args, isChild => by
    have inside := path.enter isChild
    rw [expr]
    apply Located.visit
    refine .bind (located_callTarget inside target (Node.mem_children_of_mem (.head _)))
      fun ident => ?_
    dsimp only
    split
    · next empty =>
      -- no other expression looks a scope up
      cases List.isEmpty_iff.mp empty
      exact .bind (.scope inside) fun _ => .pure
    · exact .bind (located_exprs inside args (Node.mem_children_of_mem_list (.tail _ (.head _))))
        fun _ => .pure
  | .setOf position elements, isChild => by
    have inside := path.enter isChild
    rw [expr]
    apply Located.visit
    exact .bind (located_setElements inside elements (Node.mem_children_of_mem_list (.head _)))
      fun _ => .pure

theorem located_expr? {root here : Node} {context : Context} (path : context.Path root here) :
    ∀ value : Option Expr, (∀ e ∈ value, .expr e ∈ here.children) →
      Located root (answer context (expr? value))
  | none, _ => by
    rw [expr?]
    exact .missing path
  | some e, isChild => by
    rw [expr?]
    exact located_expr path e (isChild e rfl)

theorem located_exprs {root here : Node} {context : Context} (path : context.Path root here) :
    ∀ list : List (Option Expr), (∀ value ∈ list, ∀ e ∈ value, .expr e ∈ here.children) →
      Located root (answer context (exprs list))
  | [], _ => by
    rw [exprs]
    exact .pure
  | value :: rest, areChildren => by
    obtain ⟨first, others⟩ := List.forall_mem_cons.mp areChildren
    rw [exprs]
    exact .bind (located_expr? path value first) fun _ =>
      .bind (located_exprs path rest others) fun _ => .pure

theorem located_setElement {root here : Node} {context : Context}
    (path : context.Path root here) :
    ∀ value : Option Element, (∀ e ∈ value, e.node ∈ here.children) →
      Located root (answer context (setElement value))
  | none, _ => by
    rw [setElement]
    exact .missing path
  | some (.range range), isChild => by
    rw [setElement]
    -- nor is a range entered
    exact .unsupported path (.inr (isChild (.range range) rfl))
  | some (.expr e), isChild => by
    rw [setElement]
    exact located_expr path e (isChild (.expr e) rfl)

theorem located_setElements {root here : Node} {context : Context}
    (path : context.Path root here) :
    ∀ list : List (Option Element), (∀ value ∈ list, ∀ e ∈ value, e.node ∈ here.children) →
      Located root (answer context (setElements list))
  | [], _ => by
    rw [setElements]
    exact .pure
  | value :: rest, areChildren => by
    obtain ⟨first, others⟩ := List.forall_mem_cons.mp areChildren
    rw [setElements]
    exact .bind (located_setElement path value first) fun _ =>
      .bind (located_setElements path rest others) fun _ => .pure

end

/-! ### Statements -/

mutual

/-- Errors of a statement lie on a path, if the statement is under the current node. -/
theorem located_stmt {root here : Node} {context : Context} (path : context.Path root here) :
    ∀ s : Stmt, .stmt s ∈ here.children → Located root (answer context (stmt s))
  | .assign position target op source, isChild => by
    have inside := path.enter isChild
    rw [stmt]
    apply Located.visit
    refine .bind (located_assignmentTarget inside target) fun _ => ?_
    split
    · refine .bind (located_expr? inside source ?_) fun _ => .pure
      exact Node.mem_children_of_mem (.tail _ (.tail _ (.head _)))
    · exact .unsupported inside (.inl rfl)
  | .call position target args, isChild => by
    have inside := path.enter isChild
    rw [stmt]
    apply Located.visit
    exact .bind (located_callTarget inside target (Node.mem_children_of_mem (.head _))) fun _ =>
      .bind (located_exprs inside args (Node.mem_children_of_mem_list (.tail _ (.head _))))
        fun _ => .pure
  | .compound value, isChild => by
    rw [stmt]
    exact located_compound path value isChild
  | .ifThen position condition onTrue none, isChild => by
    have inside := path.enter isChild
    rw [stmt]
    apply Located.visit
    exact .bind (located_expr? inside condition (Node.mem_children_of_mem (.head _))) fun _ =>
      .bind (located_branch inside onTrue (Node.mem_children_of_mem (.tail _ (.head _))))
        fun _ => .pure
  | .ifThen position condition onTrue (some onFalse), isChild => by
    have inside := path.enter isChild
    have isFalse : ∀ s ∈ some onFalse, .stmt s ∈ Node.children (.stmt
        (.ifThen position condition onTrue (some onFalse))) :=
      Node.mem_children_of_mem (.tail _ (.tail _ (.head _)))
    rw [stmt]
    apply Located.visit
    exact .bind (located_expr? inside condition (Node.mem_children_of_mem (.head _))) fun _ =>
      .bind (located_branch inside onTrue (Node.mem_children_of_mem (.tail _ (.head _)))) fun _ =>
      .bind (located_stmt inside onFalse (isFalse onFalse rfl)) fun _ => .pure
  | .tryExcept position body none, isChild => by
    have inside := path.enter isChild
    rw [stmt]
    apply Located.visit
    exact .bind (located_stmts inside body (Node.mem_children_of_mem_list (.head _))) fun _ => .pure
  | .tryExcept position body (some (.all handlers)), isChild => by
    have inside := path.enter isChild
    rw [stmt]
    apply Located.visit
    exact .bind (located_stmts inside body (Node.mem_children_of_mem_list (.head _))) fun _ =>
      .bind (located_stmts inside handlers (Node.mem_children_of_mem_list (.tail _ (.head _))))
        fun _ => .pure
  | .tryExcept position body (some (.clause clause)), isChild => by
    have isClause : ∀ value ∈ some clause, .handler value ∈ Node.children (.stmt
        (.tryExcept position body (some (.clause clause)))) :=
      Node.mem_children_of_mem (.tail _ (.head _))
    rw [stmt]
    -- the statement is entered, the clause is not
    exact .visit (.unsupported (path.enter isChild) (.inr (isClause clause rfl)))
  | .tryFinally position body cleanup, isChild => by
    have inside := path.enter isChild
    rw [stmt]
    apply Located.visit
    exact .bind (located_stmts inside body (Node.mem_children_of_mem_list (.head _))) fun _ =>
      .bind (located_stmts inside cleanup (Node.mem_children_of_mem_list (.tail _ (.head _))))
        fun _ => .pure

theorem located_branch {root here : Node} {context : Context} (path : context.Path root here) :
    ∀ value : Option Stmt, (∀ s ∈ value, .stmt s ∈ here.children) →
      Located root (answer context (branch value))
  | none, _ => by
    rw [branch]
    exact .pure
  | some s, isChild => by
    rw [branch]
    exact located_stmt path s (isChild s rfl)

theorem located_compound {root here : Node} {context : Context} (path : context.Path root here) :
    ∀ value : Compound, .stmt (.compound value) ∈ here.children →
      Located root (answer context (compound value))
  | ⟨position, body⟩, isChild => by
    have inside := path.enter isChild
    rw [compound]
    exact .visit (.bind .parentIs fun _ =>
      .bind (located_stmts inside body (Node.mem_children_of_mem_list (.head _))) fun _ => .pure)

theorem located_stmt? {root here : Node} {context : Context} (path : context.Path root here) :
    ∀ value : Option Stmt, (∀ s ∈ value, .stmt s ∈ here.children) →
      Located root (answer context (stmt? value))
  | none, _ => by
    rw [stmt?]
    exact .missing path
  | some s, isChild => by
    rw [stmt?]
    exact located_stmt path s (isChild s rfl)

theorem located_stmts {root here : Node} {context : Context} (path : context.Path root here) :
    ∀ list : List (Option Stmt), (∀ value ∈ list, ∀ s ∈ value, .stmt s ∈ here.children) →
      Located root (answer context (stmts list))
  | [], _ => by
    rw [stmts]
    exact .pure
  | value :: rest, areChildren => by
    obtain ⟨first, others⟩ := List.forall_mem_cons.mp areChildren
    rw [stmts]
    exact .bind (located_stmt? path value first) fun _ =>
      .bind (located_stmts path rest others) fun _ => .pure

end

/-! ### Declarations -/

section Variables

variable {root here : Node} {context : Context}

theorem located_varDecl (path : context.Path root here) (d : Option VarDecl)
    (isChild : ∀ value ∈ d, .decl (.var value) ∈ here.children) :
    Located root (answer context (varDecl d)) := by
  cases d with
  | none => exact .missing path
  | some d =>
    have inside := path.enter (isChild d rfl)
    have isValue : ∀ e ∈ d.value, .expr e ∈ Node.children (.decl (.var d)) :=
      Node.mem_children_of_mem (.tail _ (.tail _ (.head _)))
    rw [varDecl]
    apply Located.visit
    split
    · exact .missing inside
    · exact .bind (located_namesOf inside _) fun _ => .pure
    · next first others value _ isSome =>
      exact .bind (located_nameOf inside first) fun _ =>
        .bind (located_expr inside value (isValue value isSome)) fun _ =>
        .bind (located_namesOf inside others) fun _ => .pure

theorem located_varDecls (path : context.Path root here) (list : List (Option VarDecl))
    (areChildren : ∀ d ∈ list, ∀ value ∈ d, .decl (.var value) ∈ here.children) :
    Located root (answer context (varDecls list)) := by
  induction list with
  | nil => exact .pure
  | cons d rest ih =>
    obtain ⟨first, others⟩ := List.forall_mem_cons.mp areChildren
    exact .bind (located_varDecl path d first) fun _ => .bind (ih others) fun _ => .pure

theorem located_constDecl (path : context.Path root here) (d : Option ConstDecl)
    (isChild : ∀ value ∈ d, .decl (.const value) ∈ here.children) :
    Located root (answer context (constDecl d)) := by
  cases d with
  | none => exact .missing path
  | some d =>
    have inside := path.enter (isChild d rfl)
    have isValue : ∀ e ∈ d.value, .expr e ∈ Node.children (.decl (.const d)) :=
      Node.mem_children_of_mem (.tail _ (.tail _ (.head _)))
    rw [constDecl]
    apply Located.visit
    split
    · exact .missing inside
    · next value isSome =>
      exact .bind (located_nameOf inside d.name) fun _ =>
        .bind (located_expr inside value (isValue value isSome)) fun _ => .pure

theorem located_constDecls (path : context.Path root here) (list : List (Option ConstDecl))
    (areChildren : ∀ d ∈ list, ∀ value ∈ d, .decl (.const value) ∈ here.children) :
    Located root (answer context (constDecls list)) := by
  induction list with
  | nil => exact .pure
  | cons d rest ih =>
    obtain ⟨first, others⟩ := List.forall_mem_cons.mp areChildren
    exact .bind (located_constDecl path d first) fun _ => .bind (ih others) fun _ => .pure

theorem located_paramGroup (path : context.Path root here) (group : Option ParamGroup)
    (isChild : ∀ value ∈ group, .param value ∈ here.children) :
    Located root (answer context (paramGroup group)) := by
  cases group with
  | none => exact .missing path
  | some group => exact .visit (located_namesOf (path.enter (isChild group rfl)) group.names)

theorem located_paramGroups (path : context.Path root here) (list : List (Option ParamGroup))
    (areChildren : ∀ group ∈ list, ∀ value ∈ group, .param value ∈ here.children) :
    Located root (answer context (paramGroups list)) := by
  induction list with
  | nil => exact .pure
  | cons group rest ih =>
    obtain ⟨first, others⟩ := List.forall_mem_cons.mp areChildren
    exact .bind (located_paramGroup path group first) fun _ => .bind (ih others) fun _ => .pure

end Variables

mutual

/-- Errors of a declaration lie on a path, if the declaration is under the current node. -/
theorem located_decl {root here : Node} {context : Context} (path : context.Path root here) :
    ∀ d : Decl, .decl d ∈ here.children → Located root (answer context (decl d))
  | .var d, isChild => by
    rw [decl]
    refine located_varDecl path (some d) ?_
    rintro value ⟨⟩
    exact isChild
  | .vars position list, isChild => by
    rw [decl]
    exact .visit
      (located_varDecls (path.enter isChild) list (Node.mem_children_of_mem_list (.head _)))
  | .const d, isChild => by
    rw [decl]
    refine located_constDecl path (some d) ?_
    rintro value ⟨⟩
    exact isChild
  | .consts position list, isChild => by
    rw [decl]
    exact .visit
      (located_constDecls (path.enter isChild) list (Node.mem_children_of_mem_list (.head _)))
  | .header _, _ => by
    rw [decl]
    exact .pure
  | .routine r, isChild => by
    rw [decl]
    exact .bind (located_routine path r isChild) fun _ => .pure

theorem located_routine {root here : Node} {context : Context} (path : context.Path root here) :
    ∀ r : Routine, .decl (.routine r) ∈ here.children → Located root (answer context (routine r))
  | ⟨position, kind, name, params, body, scope⟩, isChild => by
    have inside := path.enter isChild
    rw [routine]
    apply Located.visit
    refine .bind (located_nameOf inside name) fun _ =>
      .bind (located_paramGroups inside params ?_) fun _ =>
      .bind (located_block? inside body ?_) fun _ => .pure
    · exact Node.mem_children_of_mem_list (.tail _ (.head _))
    · exact Node.mem_children_of_mem (.tail _ (.tail _ (.head _)))

theorem located_block {root here : Node} {context : Context} (path : context.Path root here) :
    ∀ b : Block, .block b ∈ here.children → Located root (answer context (block b))
  | ⟨position, list, body⟩, isChild => by
    have inside := path.enter isChild
    have isBody : ∀ value ∈ body, .stmt (.compound value) ∈
        Node.children (.block ⟨position, list, body⟩) :=
      Node.mem_children_of_mem (.tail _ (.head _))
    rw [block]
    apply Located.visit
    refine .bind .parentIs fun _ =>
      .bind (located_decls inside list (Node.mem_children_of_mem_list (.head _))) fun _ => ?_
    split
    · exact .pure
    · next body => exact .bind (located_compound inside body (isBody body rfl)) fun _ => .pure

theorem located_block? {root here : Node} {context : Context} (path : context.Path root here) :
    ∀ value : Option Block, (∀ b ∈ value, .block b ∈ here.children) →
      Located root (answer context (block? value))
  | none, _ => by
    rw [block?]
    exact .missing path
  | some b, isChild => by
    rw [block?]
    exact located_block path b (isChild b rfl)

theorem located_decl? {root here : Node} {context : Context} (path : context.Path root here) :
    ∀ value : Option Decl, (∀ d ∈ value, .decl d ∈ here.children) →
      Located root (answer context (decl? value))
  | none, _ => by
    rw [decl?]
    exact .missing path
  | some d, isChild => by
    rw [decl?]
    exact located_decl path d (isChild d rfl)

theorem located_decls {root here : Node} {context : Context} (path : context.Path root here) :
    ∀ list : List (Option Decl), (∀ value ∈ list, ∀ d ∈ value, .decl d ∈ here.children) →
      Located root (answer context (decls list))
  | [], _ => by
    rw [decls]
    exact .pure
  | value :: rest, areChildren => by
    obtain ⟨first, others⟩ := List.forall_mem_cons.mp areChildren
    rw [decls]
    exact .bind (located_decl? path value first) fun _ =>
      .bind (located_decls path rest others) fun _ => .pure

end

/-! ### Files -/

theorem located_unitPart {root here : Node} {context : Context} (path : context.Path root here)
    {of : UnitPart → Node} (within : ∀ part, ∀ d ∈ part.decls, ∀ value ∈ d,
      .decl value ∈ (of part).children)
    (part : Option UnitPart) (isChild : ∀ value ∈ part, of value ∈ here.children) :
    Located root (answer context (unitPart of part)) := by
  cases part with
  | none => exact .pure
  | some part =>
    have inside := path.enter (isChild part rfl)
    exact .visit (located_decls inside part.decls (within part))

/-- Errors of a file lie on a path from the file, whatever scopes are attached in it. -/
theorem located_script (file : File) : Located file.node (script file) := by
  rw [script_eq]
  cases file with
  | program file =>
    have isBlock : ∀ b ∈ file.block, .block b ∈ (Node.program file).children :=
      Node.mem_children_of_mem (.tail _ (.tail _ (.head _)))
    exact .bind (located_block? .start file.block isBlock) fun _ => .pure
  | unit file =>
    have inInterface : ∀ part ∈ file.interfacePart,
        .interfacePart part ∈ (Node.unit file).children :=
      Node.mem_children_of_mem (.tail _ (.head _))
    have inImplementation : ∀ part ∈ file.implementationPart,
        .implementationPart part ∈ (Node.unit file).children :=
      Node.mem_children_of_mem (.tail _ (.tail _ (.head _)))
    -- each part has a path of its own, which starts at the file again
    refine .bind (located_unitPart .start ?_ _ inInterface) fun _ =>
      .bind (located_unitPart .start ?_ _ inImplementation) fun _ => .pure
    · exact fun part => Node.mem_children_of_mem_list (.tail _ (.head _))
    · exact fun part => Node.mem_children_of_mem_list (.tail _ (.head _))

end Generation

theorem File.script_of_generate {file : File} {error : GenerationError}
    (failed : file.generate = .error error) : Generation.script file = .error error := by
  rw [File.generate] at failed
  cases same : Generation.script file with
  | ok script =>
    rw [same] at failed
    cases failed
  | error cause =>
    rw [same] at failed
    cases failed
    rfl

/-- An error of a file has the kinds along a path in its trail, from the file to the node at
fault or its parent. If it is a name without a scope, it is that of a call without arguments,
and nothing on the path has a scope. All functions of the generator keep the stack of visited
nodes, whether or not they fail. -/
theorem File.trail_descends (file : File) :
    (∀ error, file.generate = .error error →
      ∃ chain, Descends file.node chain ∧ error.trace = chain.map Node.kind ∧
        error.EndsAt chain) ∧
    (Generation.file file : Walk _) (.root file.node) =
      (Generation.script file, .root file.node) ∧
    ∀ {α : Type} {emit : ∀ (m : Type → Type) [Visiting m], m α}, Emitter emit →
      ∀ stack, emit Walk stack = (Generation.answer stack (emit Descent), stack) := by
  refine ⟨fun error failed => ?_, ?_, fun emitter => emitter.matches⟩
  · exact Generation.located_script file error (script_of_generate failed)
  · rw [Generation.script_eq]
    exact Generation.matches_file file (.root file.node)

/-- A program with a routine that assigns what is called `Next`. -/
def callingProgram : File :=
  let call : Expr := .call .unknown (some ⟨.unknown, "Next"⟩) []
  let body : Compound :=
    ⟨.unknown, [some (.assign .unknown (some ⟨.unknown, "x"⟩) ":=" (some call))]⟩
  let step : Routine :=
    ⟨.unknown, .procedure, some ⟨.unknown, "Step"⟩, [], some ⟨.unknown, [], some body⟩, none⟩
  .program { block := some ⟨.unknown, [some (.routine step)], none⟩ }

/-- Without scopes the call cannot be told from a variable. -/
theorem File.trail_descends_callingProgram :
    ∃ error chain, callingProgram.generate = .error error ∧
      error.trace = [.program, .block, .procedureDeclaration, .block, .compoundStatement,
        .assignment, .functionCall] ∧
      Descends callingProgram.node chain ∧ error.trace = chain.map Node.kind ∧
      error.EndsAt chain := by
  obtain ⟨chain, found⟩ := (File.trail_descends callingProgram).1 (.noScope [.program, .block,
    .procedureDeclaration, .block, .compoundStatement, .assignment, .functionCall]) rfl
  exact ⟨_, chain, rfl, rfl, found⟩

end PascalCompiler
