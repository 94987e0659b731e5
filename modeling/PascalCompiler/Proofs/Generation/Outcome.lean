import PascalCompiler.Compile
import PascalCompiler.Proofs.Generation.Stack
import PascalCompiler.Proofs.Script.Derivation
import PascalCompiler.Proofs.Resolution.Unnamed

/-!
# What generating a script comes to

The generator either makes a valid script or fails. In a valid script names stand
for identifiers of the file, functions stand only where declarations do, and
nothing is declared without a name. In a well-formed tree it fails only for a
fault of some node: something that scripts cannot express, or an identifier
without a name. No part is missing then, and no name is looked up without a
scope.

Both are shown in one walk over the tree, so that each function of the generator
is opened once.

## Main definitions

* `Node.Fault`: a node with something that scripts cannot express
* `Node.Names`: the script names of the identifiers in a tree
* `Node.Grouped`: a tree without empty groups of parameters
* `Generation.Outcome`: what a computation of the generator may come to

## Main results

* `Generation.outcome_expr`, `Generation.outcome_stmt`, `Generation.outcome_decl`: the outcome for
  expressions, statements and declarations
* `Generation.outcome_script`: the outcome for files
-/

namespace PascalCompiler

/-- A node with something that scripts cannot express, and the reason it is
refused for. -/
inductive Node.Fault : Node → Reason → Prop where
  | emptyName {ident : Ident} (empty : ident.name = "") :
      Fault (.ident ident) (.missing .identifier)
  | noBlock {routine : Routine} (absent : routine.block = none) :
      Fault (.decl (.routine routine)) (.missing .block)
  | assignmentOperator {position : Position} {target : Option Ident} {op : String}
      {source : Option Expr} (other : op ≠ ":=") :
      Fault (.stmt (.assign position target op source)) (.assignmentOperator op)
  | binaryOperator {position : Position} {op : String} {left right : Option Expr}
      (other : Lowercase.lowerText op ∉ ["+", "=", "<>", "and"]) :
      Fault (.expr (.binary position op left right)) (.binaryOperator op)
  | setRange (range : Range) : Fault (.range range) .setRange
  | handlerClause (clause : HandlerClause) : Fault (.handler clause) .handlerClause
  | negativeCode {position : Position} {code : Int} (negative : code < 0) :
      Fault (.expr (.control position code)) (.negativeCode code)
  | codeBeyondUnicode {position : Position} {code : Int} (beyond : 0x10FFFF < code) :
      Fault (.expr (.control position code)) (.codeBeyondUnicode code)

/-- The reason of an error. A name that is looked up without a scope has none. -/
def GenerationError.reason? : GenerationError → Option Reason
  | .unsupported _ _ reason | .invalidValue _ _ reason => some reason
  | .noScope _ => none

/-- The script names of the identifiers in a tree. -/
def Node.Names (root : Node) (name : String) : Prop :=
  ∃ ident : Ident, root.Within (.ident ident) ∧ name = Script.identifier ident.name

/-- No group of parameters in the tree is empty. -/
def Node.Grouped (root : Node) : Prop :=
  ∀ group : ParamGroup, root.Within (.param group) → group.names ≠ []

namespace Generation

/-- A result has the property. An error is a fault of a node, if the tree is
well-formed and has a scope. -/
structure Outcome {α : Type} (root : Node) (context : Context) (p : α → Prop)
    (result : Except GenerationError α) : Prop where
  valid : ∀ a, result = .ok a → p a
  fault : ∀ file, root.WellFormed file → context.scope?.isSome → ∀ error, result = .error error →
    ∃ node reason, root.Within node ∧ node.Fault reason ∧ error.reason? = some reason

namespace Outcome

variable {α β : Type} {root node : Node} {context : Context} {p : α → Prop} {q : β → Prop}

theorem pure {a : α} (holds : p a) : Outcome root context p (answer context (Pure.pure a)) where
  valid b same := by
    cases same
    exact holds
  fault _ _ _ _ same := nomatch same

theorem bind {descent : Descent α} {next : α → Descent β}
    (first : Outcome root context p (answer context descent))
    (rest : ∀ a, p a → Outcome root context q (answer context (next a))) :
    Outcome root context q (answer context (descent >>= next)) := by
  rw [answer_bind]
  cases result : answer context descent with
  | error error =>
    -- the first part fails, and the rest is not reached
    refine ⟨fun _ same => (nomatch same), fun file wellFormed inScope other same => ?_⟩
    cases same
    exact first.fault file wellFormed inScope error result
  | ok a => exact rest a (first.valid a result)

/-- A fault of a node. -/
theorem error {reason : Reason} {error : GenerationError} (within : root.Within node)
    (isFault : node.Fault reason) (same : error.reason? = some reason) :
    Outcome root context p (.error error) where
  valid _ same := nomatch same
  fault _ _ _ other isError := by
    cases isError
    exact ⟨node, reason, within, isFault, same⟩

/-- An error that no well-formed tree leads to. -/
theorem impossible {error : GenerationError} (malformed : ∀ file, ¬ root.WellFormed file) :
    Outcome root context p (.error error) where
  valid _ same := nomatch same
  fault file wellFormed := absurd wellFormed (malformed file)

/-- The failure to find a part that must be there. -/
theorem missing {γ : Type} {of : γ → Node} {error : GenerationError} (holds : root.Holds of none) :
    Outcome root context p (.error error) :=
  .impossible fun file wellFormed => nomatch holds.isSome file wellFormed

/-- Inside of a node there is a scope if there is one around it. -/
theorem visit {descent : Descent α}
    (inside : Outcome root (context.enter node) p (answer (context.enter node) descent)) :
    Outcome root context p (answer context (Visiting.visit node descent)) where
  valid := inside.valid
  fault file wellFormed inScope := by
    refine inside.fault file wellFormed ?_
    rw [Context.scope?, Context.enter, List.findSome?_cons]
    split
    · rfl
    · exact inScope

/-- The kind of the parent of a node that was just entered. -/
theorem parentIs {kind : Kind} :
    Outcome root (context.enter node) (· = context.currentIs kind)
      (answer (context.enter node) (Generation.parentIs kind)) :=
  .pure (context.parentIs_enter node kind)

end Outcome

/-! ### Names -/

section Names

variable {root : Node} {context : Context}

theorem outcome_nameOf (context : Context) {ident : Option Ident}
    (holds : root.Holds .ident ident) :
    Outcome root context root.Names (answer context (nameOf ident)) := by
  cases ident with
  | none => exact .missing holds
  | some ident =>
    -- of the identifiers that are there, only one without a name is refused
    have within := holds.within ident rfl
    rw [nameOf]
    split
    · next empty => exact .error within (.emptyName empty) rfl
    · exact .pure ⟨ident, within, rfl⟩

theorem outcome_namesOf (context : Context) {idents : List (Option Ident)}
    (holds : ∀ ident ∈ idents, root.Holds .ident ident) :
    Outcome root context
      (fun names => (∀ name ∈ names, root.Names name) ∧ names.length = idents.length)
      (answer context (namesOf idents)) := by
  induction idents with
  | nil => exact .pure ⟨nofun, rfl⟩
  | cons ident idents ih =>
    obtain ⟨here, others⟩ := List.forall_mem_cons.mp holds
    refine .bind (outcome_nameOf context here) fun name isName => .bind (ih others) ?_
    rintro names ⟨each, length⟩
    exact .pure ⟨List.forall_mem_cons.mpr ⟨isName, each⟩, by simp [length]⟩

theorem outcome_callTarget {target : Option Ident} (holds : root.Holds .ident target) :
    Outcome root context (fun ident => root.Names (Script.identifier ident.name))
      (answer context (callTarget target)) := by
  cases target with
  | none => exact .missing holds
  | some ident =>
    have checked := outcome_nameOf (context.enter (.ident ident)) holds
    exact .visit (.bind checked fun _ _ => .pure ⟨ident, holds.within ident rfl, rfl⟩)

theorem outcome_assignmentTarget {target : Option Ident} (holds : root.Holds .ident target) :
    Outcome root context root.Names (answer context (assignmentTarget target)) := by
  cases target with
  | none => exact .missing holds
  | some ident => exact outcome_nameOf context holds

/-- A name is looked up in the innermost scope, which is there. -/
theorem outcome_scope :
    Outcome root context (fun _ => True) (answer context (Visiting.look Context.scope)) where
  valid _ _ := trivial
  fault file _ inScope error same := by
    obtain ⟨scope, found⟩ := Option.isSome_iff_exists.mp inScope
    rw [answer_look, Context.scope, found] at same
    cases same

theorem not_mem_of_ofSource? {op : String} (unsupported : Script.Operator.ofSource? op = none) :
    Lowercase.lowerText op ∉ ["+", "=", "<>", "and"] := by
  simp only [Script.Operator.ofSource?] at unsupported
  split at unsupported
  · cases unsupported
  split at unsupported
  · cases unsupported
  split at unsupported
  · cases unsupported
  split at unsupported
  · cases unsupported
  · simp [*]

theorem outcome_control {position : Position} {code : Int}
    (within : root.Within (.expr (.control position code))) :
    Outcome root context (Script.Expr.Valid root.Names)
      (answer context (expr (.control position code))) := by
  rw [expr, controlCode]
  by_cases negative : code < 0
  · rw [if_pos negative]
    exact .error within (.negativeCode negative) rfl
  · by_cases beyond : 0x10FFFF < code
    · rw [if_neg negative, if_pos beyond]
      exact .error within (.codeBeyondUnicode beyond) rfl
    · rw [if_neg negative, if_neg beyond]
      exact .pure (.code (by omega))

end Names

/-! ### Expressions -/

mutual

/-- The script of an expression is valid, or a node in it has a fault. -/
theorem outcome_expr {root : Node} (context : Context) :
    ∀ e : Expr, root.Within (.expr e) →
      Outcome root context (Script.Expr.Valid root.Names) (answer context (expr e))
  | .text _ value, _ => by
    rw [expr]
    exact .pure (.text value)
  | .control _ _, within => outcome_control within
  | .integer _ value, _ => by
    rw [expr]
    exact .pure (.integer value)
  | .parens position inner, within => by
    have hInner : root.Holds .expr inner := within.holds (.head _)
    rw [expr]
    apply Outcome.visit
    exact .bind (outcome_expr? _ inner hInner) fun _ valid => .pure (.parens valid)
  | .binary position op left right, within => by
    have hLeft : root.Holds .expr left := within.holds (.tail _ (.head _))
    have hRight : root.Holds .expr right := within.holds (.tail _ (.tail _ (.head _)))
    rw [expr]
    apply Outcome.visit
    split
    · next unsupported =>
      -- the operator is refused before the operands are looked at
      exact .error within (.binaryOperator (not_mem_of_ofSource? unsupported)) rfl
    · exact .bind (outcome_expr? _ left hLeft) fun _ first =>
        .bind (outcome_expr? _ right hRight) fun _ second => .pure (.binary first second)
  | .call position target args, within => by
    have hTarget : root.Holds .ident target := within.holds (.head _)
    have hArgs : ∀ arg ∈ args, root.Holds .expr arg := within.holds_of_mem (.tail _ (.head _))
    rw [expr]
    apply Outcome.visit
    refine .bind (outcome_callTarget hTarget) fun ident isName => ?_
    dsimp only
    split
    · -- without arguments it may be a call or a variable, in either case of that name
      refine .bind outcome_scope fun scope _ => .pure ?_
      split
      · exact .call isName nofun
      · exact .name isName
    · exact .bind (outcome_exprs _ args hArgs) fun _ each => .pure (.call isName each)
  | .setOf position elements, within => by
    have hElements : ∀ element ∈ elements, root.Holds Element.node element :=
      within.holds_of_mem (.head _)
    rw [expr]
    apply Outcome.visit
    exact .bind (outcome_setElements _ elements hElements) fun _ each => .pure (.array each)

theorem outcome_expr? {root : Node} (context : Context) :
    ∀ value : Option Expr, root.Holds .expr value →
      Outcome root context (Script.Expr.Valid root.Names) (answer context (expr? value))
  | none, holds => by
    rw [expr?]
    exact .missing holds
  | some e, holds => by
    rw [expr?]
    exact outcome_expr context e (holds.within e rfl)

theorem outcome_exprs {root : Node} (context : Context) :
    ∀ list : List (Option Expr), (∀ value ∈ list, root.Holds .expr value) →
      Outcome root context (fun list => ∀ e ∈ list, Script.Expr.Valid root.Names e)
        (answer context (exprs list))
  | [], _ => by
    rw [exprs]
    exact .pure nofun
  | value :: rest, holds => by
    obtain ⟨here, others⟩ := List.forall_mem_cons.mp holds
    rw [exprs]
    exact .bind (outcome_expr? context value here) fun _ first =>
      .bind (outcome_exprs context rest others) fun _ each =>
        .pure (List.forall_mem_cons.mpr ⟨first, each⟩)

theorem outcome_setElement {root : Node} (context : Context) :
    ∀ value : Option Element, root.Holds Element.node value →
      Outcome root context (Script.Expr.Valid root.Names) (answer context (setElement value))
  | none, holds => by
    rw [setElement]
    exact .missing holds
  | some (.range range), holds => by
    rw [setElement]
    exact .error (holds.within _ rfl) (.setRange range) rfl
  | some (.expr e), holds => by
    rw [setElement]
    exact outcome_expr context e (holds.within (.expr e) rfl)

theorem outcome_setElements {root : Node} (context : Context) :
    ∀ list : List (Option Element), (∀ value ∈ list, root.Holds Element.node value) →
      Outcome root context (fun list => ∀ e ∈ list, Script.Expr.Valid root.Names e)
        (answer context (setElements list))
  | [], _ => by
    rw [setElements]
    exact .pure nofun
  | value :: rest, holds => by
    obtain ⟨here, others⟩ := List.forall_mem_cons.mp holds
    rw [setElements]
    exact .bind (outcome_setElement context value here) fun _ first =>
      .bind (outcome_setElements context rest others) fun _ each =>
        .pure (List.forall_mem_cons.mpr ⟨first, each⟩)

end

/-! ### Statements -/

/-- The script of a statement is valid and has no functions in it. It is one
statement, unless it stands directly in a block. -/
def ValidStmt (root : Node) (context : Context) (s : Script.Stmt) : Prop :=
  s.Valid root.Names ∧ (context.currentIs .block = false → s.isSingle)

mutual

/-- The script of a statement is valid, or a node in the statement has a fault. -/
theorem outcome_stmt {root : Node} (context : Context) :
    ∀ s : Stmt, root.Within (.stmt s) →
      Outcome root context (ValidStmt root context) (answer context (stmt s))
  | .assign position target op source, within => by
    have hTarget : root.Holds .ident target := within.holds (.head _)
    have hSource : root.Holds .expr source := within.holds (.tail _ (.tail _ (.head _)))
    rw [stmt]
    apply Outcome.visit
    refine .bind (outcome_assignmentTarget hTarget) fun _ isName => ?_
    split
    · exact .bind (outcome_expr? _ source hSource) fun _ valid =>
        .pure ⟨.assign isName valid, fun _ => rfl⟩
    · next other => exact .error within (.assignmentOperator other) rfl
  | .call position target args, within => by
    have hTarget : root.Holds .ident target := within.holds (.head _)
    have hArgs : ∀ arg ∈ args, root.Holds .expr arg := within.holds_of_mem (.tail _ (.head _))
    rw [stmt]
    apply Outcome.visit
    exact .bind (outcome_callTarget hTarget) fun _ isName =>
      .bind (outcome_exprs _ args hArgs) fun _ each => .pure ⟨.call isName each, fun _ => rfl⟩
  | .compound value, within => by
    rw [stmt]
    exact outcome_compound context value within
  | .ifThen position condition onTrue none, within => by
    have hCondition : root.Holds .expr condition := within.holds (.head _)
    have isTrue : ∀ s ∈ onTrue, root.Within (.stmt s) := within.of_child (.tail _ (.head _))
    rw [stmt]
    apply Outcome.visit
    exact .bind (outcome_expr? _ condition hCondition) fun _ test =>
      .bind (outcome_branch _ onTrue isTrue) fun _ valid =>
        .pure ⟨.ifThen test (valid.2 rfl) valid.1, fun _ => rfl⟩
  | .ifThen position condition onTrue (some onFalse), within => by
    have hCondition : root.Holds .expr condition := within.holds (.head _)
    have isTrue : ∀ s ∈ onTrue, root.Within (.stmt s) := within.of_child (.tail _ (.head _))
    have isFalse : ∀ s ∈ some onFalse, root.Within (.stmt s) :=
      within.of_child (.tail _ (.tail _ (.head _)))
    rw [stmt]
    apply Outcome.visit
    exact .bind (outcome_expr? _ condition hCondition) fun _ test =>
      .bind (outcome_branch _ onTrue isTrue) fun _ valid =>
      .bind (outcome_stmt _ onFalse (isFalse onFalse rfl)) fun _ otherwise =>
      .pure ⟨.ifElse test (valid.2 rfl) valid.1 (otherwise.2 rfl) otherwise.1, fun _ => rfl⟩
  | .tryExcept position body none, within => by
    have hBody : ∀ s ∈ body, root.Holds .stmt s := within.holds_of_mem (.head _)
    rw [stmt]
    apply Outcome.visit
    exact .bind (outcome_stmts _ body hBody) fun _ each =>
      .pure ⟨.tryCatch each nofun, fun _ => rfl⟩
  | .tryExcept position body (some (.all handlers)), within => by
    have hBody : ∀ s ∈ body, root.Holds .stmt s := within.holds_of_mem (.head _)
    have hHandlers : ∀ s ∈ handlers, root.Holds .stmt s := within.holds_of_mem (.tail _ (.head _))
    rw [stmt]
    apply Outcome.visit
    exact .bind (outcome_stmts _ body hBody) fun _ each =>
      .bind (outcome_stmts _ handlers hHandlers) fun _ catches =>
        .pure ⟨.tryCatch each catches, fun _ => rfl⟩
  | .tryExcept position body (some (.clause clause)), within => by
    -- the fault is that of the clause, a node of its own
    have isClause : root.Within (.handler clause) :=
      within.child (.tail _ (.head _)) (List.mem_singleton_self _)
    rw [stmt]
    exact .visit (.error isClause (.handlerClause clause) rfl)
  | .tryFinally position body cleanup, within => by
    have hBody : ∀ s ∈ body, root.Holds .stmt s := within.holds_of_mem (.head _)
    have hCleanup : ∀ s ∈ cleanup, root.Holds .stmt s := within.holds_of_mem (.tail _ (.head _))
    rw [stmt]
    apply Outcome.visit
    exact .bind (outcome_stmts _ body hBody) fun _ each =>
      .bind (outcome_stmts _ cleanup hCleanup) fun _ finishes =>
        .pure ⟨.tryFinally each finishes, fun _ => rfl⟩

theorem outcome_branch {root : Node} (context : Context) :
    ∀ value : Option Stmt, (∀ s ∈ value, root.Within (.stmt s)) →
      Outcome root context (ValidStmt root context) (answer context (branch value))
  | none, _ => by
    rw [branch]
    exact .pure ⟨.empty, fun _ => rfl⟩
  | some s, within => by
    rw [branch]
    exact outcome_stmt context s (within s rfl)

theorem outcome_compound {root : Node} (context : Context) :
    ∀ value : Compound, root.Within (.stmt (.compound value)) →
      Outcome root context (ValidStmt root context) (answer context (compound value))
  | ⟨position, body⟩, within => by
    have hBody : ∀ s ∈ body, root.Holds .stmt s := within.holds_of_mem (.head _)
    rw [compound]
    -- directly in a block the braces are left out
    refine .visit (.bind .parentIs fun inBlock same =>
      .bind (outcome_stmts _ body hBody) fun _ each => .pure ⟨.block each, fun outside => ?_⟩)
    rw [same, outside]
    rfl

theorem outcome_stmt? {root : Node} (context : Context) :
    ∀ value : Option Stmt, root.Holds .stmt value →
      Outcome root context (ValidStmt root context) (answer context (stmt? value))
  | none, holds => by
    rw [stmt?]
    exact .missing holds
  | some s, holds => by
    rw [stmt?]
    exact outcome_stmt context s (holds.within s rfl)

theorem outcome_stmts {root : Node} (context : Context) :
    ∀ list : List (Option Stmt), (∀ value ∈ list, root.Holds .stmt value) →
      Outcome root context (fun list => ∀ s ∈ list, Script.Stmt.Valid root.Names s)
        (answer context (stmts list))
  | [], _ => by
    rw [stmts]
    exact .pure nofun
  | value :: rest, holds => by
    obtain ⟨here, others⟩ := List.forall_mem_cons.mp holds
    rw [stmts]
    exact .bind (outcome_stmt? context value here) fun _ first =>
      .bind (outcome_stmts context rest others) fun _ each =>
        .pure (List.forall_mem_cons.mpr ⟨first.1, each⟩)

end

/-! ### Declarations -/

/-- Every statement and function in the list is valid, if parameters are declared
in groups that are not empty. -/
def ValidList (root : Node) (list : List Script.Stmt) : Prop :=
  ∀ s ∈ list, root.Grouped → s.ValidElement root.Names

section Variables

variable {root : Node} {context : Context}

theorem ValidList.append {first second : List Script.Stmt} (left : ValidList root first)
    (right : ValidList root second) : ValidList root (first ++ second) := by
  intro s mem
  rcases List.mem_append.mp mem with before | behind
  · exact left s before
  · exact right s behind

theorem validList_of_valid {list : List Script.Stmt} (each : ∀ s ∈ list, s.Valid root.Names) :
    ValidList root list :=
  fun s mem _ => .statement (each s mem)

theorem outcome_varDecl {d : Option VarDecl}
    (holds : root.Holds (fun d => .decl (.var d)) d) :
    Outcome root context (ValidList root) (answer context (varDecl d)) := by
  cases d with
  | none => exact .missing holds
  | some d =>
    have within : root.Within (.decl (.var d)) := holds.within d rfl
    have hNames : ∀ name ∈ d.names, root.Holds .ident name := within.holds_of_mem (.head _)
    have isValue : ∀ e ∈ d.value, root.Within (.expr e) :=
      within.of_child (.tail _ (.tail _ (.head _)))
    rw [varDecl]
    apply Outcome.visit
    split
    · next _ empty =>
      -- a variable declaration without a variable is not well-formed
      refine .impossible fun file wellFormed => ?_
      obtain ⟨-, -, complete, -⟩ := wellFormed.of_within within
      have isPart : Component.listOf "identifiers" .nonempty .ident d.names ∈ (Decl.var d).parts :=
        (.head _)
      exact (complete _ isPart).2 rfl (by rw [empty]; rfl)
    · next _ nonempty =>
      refine .bind (outcome_namesOf _ hNames) ?_
      rintro names ⟨each, length⟩
      -- as many names are written as there are identifiers
      have some : names ≠ [] := by
        rintro rfl
        exact nonempty (List.length_eq_zero_iff.mp length.symm)
      exact .pure (validList_of_valid (List.forall_mem_singleton.mpr (.declare some each)))
    · next first others value same isSome =>
      rw [same] at hNames
      obtain ⟨hFirst, hOthers⟩ := List.forall_mem_cons.mp hNames
      refine .bind (outcome_nameOf _ hFirst) fun name isName => ?_
      refine .bind (outcome_expr _ value (isValue value isSome)) fun _ valid => ?_
      refine .bind (outcome_namesOf _ hOthers) fun names each => .pure (validList_of_valid ?_)
      -- the first variable gets the value, the others that of the first
      rw [List.forall_mem_cons, List.forall_mem_map]
      exact ⟨.define isName valid, fun other mem => .define (each.1 other mem) (.name isName)⟩

theorem outcome_varDecls {list : List (Option VarDecl)}
    (holds : ∀ d ∈ list, root.Holds (fun d => .decl (.var d)) d) :
    Outcome root context (ValidList root) (answer context (varDecls list)) := by
  induction list with
  | nil => exact .pure nofun
  | cons d rest ih =>
    obtain ⟨here, others⟩ := List.forall_mem_cons.mp holds
    exact .bind (outcome_varDecl here) fun _ first =>
      .bind (ih others) fun _ each => .pure (first.append each)

theorem outcome_constDecl {d : Option ConstDecl}
    (holds : root.Holds (fun d => .decl (.const d)) d) :
    Outcome root context (ValidList root) (answer context (constDecl d)) := by
  cases d with
  | none => exact .missing holds
  | some d =>
    have within : root.Within (.decl (.const d)) := holds.within d rfl
    have hName : root.Holds .ident d.name := within.holds (.head _)
    have hValue : root.Holds .expr d.value := within.holds (.tail _ (.tail _ (.head _)))
    rw [constDecl]
    apply Outcome.visit
    split
    · next absent => exact .missing (absent ▸ hValue)
    · next value isSome =>
      refine .bind (outcome_nameOf _ hName) fun name isName => ?_
      refine .bind (outcome_expr _ value (hValue.within value isSome)) fun _ valid => .pure ?_
      exact validList_of_valid (List.forall_mem_singleton.mpr (.define isName valid))

theorem outcome_constDecls {list : List (Option ConstDecl)}
    (holds : ∀ d ∈ list, root.Holds (fun d => .decl (.const d)) d) :
    Outcome root context (ValidList root) (answer context (constDecls list)) := by
  induction list with
  | nil => exact .pure nofun
  | cons d rest ih =>
    obtain ⟨here, others⟩ := List.forall_mem_cons.mp holds
    exact .bind (outcome_constDecl here) fun _ first =>
      .bind (ih others) fun _ each => .pure (first.append each)

theorem outcome_paramGroup {group : Option ParamGroup} (holds : root.Holds .param group) :
    Outcome root context
      (fun names => (root.Grouped → names ≠ []) ∧ ∀ name ∈ names, root.Names name)
      (answer context (paramGroup group)) := by
  cases group with
  | none => exact .missing holds
  | some group =>
    have within := holds.within group rfl
    have hNames : ∀ name ∈ group.names, root.Holds .ident name := within.holds_of_mem (.head _)
    have named := outcome_namesOf (context.enter (.param group)) hNames
    refine ⟨fun names same => ?_, named.visit.fault⟩
    obtain ⟨each, length⟩ := named.valid names same
    refine ⟨fun grouped => ?_, each⟩
    rintro rfl
    exact grouped group within (List.length_eq_zero_iff.mp length.symm)

theorem outcome_paramGroups {list : List (Option ParamGroup)}
    (holds : ∀ group ∈ list, root.Holds .param group) :
    Outcome root context
      (fun list => (root.Grouped → [] ∉ list) ∧ ∀ names ∈ list, ∀ name ∈ names, root.Names name)
      (answer context (paramGroups list)) := by
  induction list with
  | nil => exact .pure ⟨nofun, nofun⟩
  | cons group rest ih =>
    obtain ⟨here, others⟩ := List.forall_mem_cons.mp holds
    refine .bind (outcome_paramGroup here) fun names first => ?_
    refine .bind (ih others) fun list each => .pure ⟨fun grouped mem => ?_, ?_⟩
    · rcases List.mem_cons.mp mem with same | mem
      · exact first.1 grouped same.symm
      · exact each.1 grouped mem
    · exact List.forall_mem_cons.mpr ⟨first.2, each.2⟩

end Variables

section Attached

open Resolution

mutual

/-- The scripts of a declaration are valid once scopes are attached to it, or a
node in the declaration has a fault. -/
theorem outcome_decl {root : Node} (context : Context) (tables : List NameTable) :
    ∀ d : Decl, root.Within (.decl d) →
      Outcome root context (ValidList root) (answer context (decl (attachDecl tables d)))
  | .var d, within => by
    rw [attachDecl, decl]
    exact outcome_varDecl (.some within)
  | .vars position list, within => by
    have hList : ∀ d ∈ list, root.Holds (fun d => .decl (.var d)) d :=
      within.holds_of_mem (.head _)
    rw [attachDecl, decl]
    exact .visit (outcome_varDecls hList)
  | .const d, within => by
    rw [attachDecl, decl]
    exact outcome_constDecl (.some within)
  | .consts position list, within => by
    have hList : ∀ d ∈ list, root.Holds (fun d => .decl (.const d)) d :=
      within.holds_of_mem (.head _)
    rw [attachDecl, decl]
    exact .visit (outcome_constDecls hList)
  | .header _, _ => by
    rw [attachDecl, decl]
    exact .pure nofun
  | .routine r, within => by
    rw [attachDecl, decl]
    exact .bind (outcome_routine context tables r within) fun _ valid =>
      .pure (List.forall_mem_singleton.mpr valid)

theorem outcome_routine {root : Node} (context : Context) (tables : List NameTable) :
    ∀ r : Routine, root.Within (.decl (.routine r)) →
      Outcome root context (fun s => root.Grouped → s.ValidElement root.Names)
        (answer context (routine (attachRoutine tables r)))
  | ⟨position, kind, name, params, none, scope⟩, within => by
    have hName : root.Holds .ident name := within.holds (.head _)
    have hParams : ∀ group ∈ params, root.Holds .param group :=
      within.holds_of_mem (.tail _ (.head _))
    -- a tree without the block is well-formed, but there is no function to write
    rw [attachRoutine, routine, attachBlock?, block?]
    apply Outcome.visit
    exact .bind (outcome_nameOf _ hName) fun _ _ =>
      .bind (outcome_paramGroups hParams) fun _ _ => .error within (.noBlock rfl) rfl
  | ⟨position, kind, name, params, some body, scope⟩, within => by
    have hName : root.Holds .ident name := within.holds (.head _)
    have hParams : ∀ group ∈ params, root.Holds .param group :=
      within.holds_of_mem (.tail _ (.head _))
    have isBody : ∀ b ∈ some body, root.Within (.block b) :=
      within.of_child (.tail _ (.tail _ (.head _)))
    rw [attachRoutine, routine, attachBlock?, block?]
    apply Outcome.visit
    refine .bind (outcome_nameOf _ hName) fun _ isName =>
      .bind (outcome_paramGroups hParams) fun _ isParam =>
      .bind (outcome_block _ _ body (isBody body rfl)) ?_
    -- the parent of the block is the routine, so its braces are written
    rintro _ ⟨list, rfl, each⟩
    rw [Context.currentIs_program_routine]
    exact .pure fun grouped => .function isName (isParam.1 grouped) isParam.2
      fun s mem => each s mem grouped

theorem outcome_block {root : Node} (context : Context) (tables : List NameTable) :
    ∀ b : Block, root.Within (.block b) →
      Outcome root context
        (fun s => ∃ list, s = .block (!context.currentIs .program) list ∧ ValidList root list)
        (answer context (block (attachBlock tables b)))
  | ⟨position, list, body⟩, within => by
    have hList : ∀ d ∈ list, root.Holds .decl d := within.holds_of_mem (.head _)
    have hBody : root.Holds (fun body => .stmt (.compound body)) body :=
      within.holds (.tail _ (.head _))
    rw [attachBlock, block]
    apply Outcome.visit
    refine .bind .parentIs fun ofProgram same => ?_
    refine .bind (outcome_decls _ tables list hList) fun _ first => ?_
    rw [same]
    split
    · exact .pure ⟨_, rfl, first⟩
    · next body =>
      refine .bind (outcome_compound _ body (hBody.within body rfl)) fun _ valid => ?_
      have last := validList_of_valid (List.forall_mem_singleton.mpr valid.1)
      exact .pure ⟨_, rfl, first.append last⟩

theorem outcome_decls {root : Node} (context : Context) (tables : List NameTable) :
    ∀ list : List (Option Decl), (∀ d ∈ list, root.Holds .decl d) →
      Outcome root context (ValidList root) (answer context (decls (attachDecls tables list)))
  | [], _ => by
    rw [attachDecls, decls]
    exact .pure nofun
  | none :: rest, holds => by
    rw [attachDecls, attachDecl?, decls, decl?]
    exact .missing (holds none (.head _))
  | some d :: rest, holds => by
    obtain ⟨here, others⟩ := List.forall_mem_cons.mp holds
    rw [attachDecls, attachDecl?, decls, decl?]
    exact .bind (outcome_decl context tables d (here.within d rfl)) fun _ first =>
      .bind (outcome_decls context tables rest others) fun _ each => .pure (first.append each)

end

end Attached

/-! ### Files -/

theorem outcome_unitPart {root : Node} {context : Context} {of : UnitPart → Node}
    {tables : List NameTable} {part : Option UnitPart}
    (holds : ∀ d ∈ (part.map UnitPart.decls).getD [], root.Holds .decl d) :
    Outcome root context (ValidList root)
      (answer context (unitPart of (part.map (Resolution.attachPart tables)))) := by
  cases part with
  | none => exact .pure nofun
  | some part => exact .visit (outcome_decls _ tables part.decls holds)

/-- The script of a file is valid, or a node in the file has a fault. -/
theorem outcome_script (file : File) :
    Outcome file.node (.root file.resolve.node) (ValidList file.node) (script file.resolve) := by
  rw [script_eq, file.resolve_eq]
  cases file with
  | program file =>
    have hBlock : (Node.program file).Holds .block file.block :=
      Node.Within.root.holds (.tail _ (.tail _ (.head _)))
    rw [Resolution.attachFile, Generation.file]
    cases same : file.block with
    | none => exact .missing (same ▸ hBlock)
    | some block =>
      refine .bind (outcome_block _ _ block (hBlock.within block same)) ?_
      -- the parent of the block is the program, so it is a row of statements and functions
      rintro _ ⟨list, rfl, each⟩
      exact .pure (List.forall_mem_singleton.mpr fun grouped => .row fun s mem =>
        each s mem grouped)
  | unit file =>
    exact .bind (outcome_unitPart file.holds_interface) fun _ first =>
      .bind (outcome_unitPart file.holds_implementation) fun _ second =>
      .pure (first.append second)

/-- Resolving a file attaches a scope to its root. -/
theorem isSome_scope_resolve (file : File) : (Context.root file.resolve.node).scope?.isSome := by
  rw [file.resolve_eq]
  cases file <;> rfl

end Generation

theorem eq_ok_of_mem_toOption {ε α : Type} {result : Except ε α} {a : α}
    (mem : a ∈ result.toOption) : result = .ok a := by
  cases result with
  | error e => cases mem
  | ok b => rw [Option.some_inj.mp mem]

theorem File.script_of_compile {file : File} {text : String} (compiled : file.compile = .ok text) :
    ∃ script, Generation.script file.resolve = .ok script ∧ text = Script.print script := by
  rw [File.compile] at compiled
  split at compiled
  · rw [File.generate] at compiled
    cases same : Generation.script file.resolve with
    | error error =>
      rw [same] at compiled
      cases compiled
    | ok script =>
      rw [same] at compiled
      cases compiled
      exact ⟨script, rfl, rfl⟩
  · cases compiled

/-- A file is not compiled because of its defects or, if it has none, because no
script is generated for it. -/
theorem File.cause_of_compile {file : File} {error : CompileError}
    (failed : file.compile = .error error) :
    (error = .resolution file.defects ∧ file.defects ≠ []) ∨
      ∃ cause, error = .generation cause ∧ Generation.script file.resolve = .error cause := by
  rw [File.compile] at failed
  split at failed
  · rw [File.generate] at failed
    cases same : Generation.script file.resolve with
    | ok script =>
      rw [same] at failed
      cases failed
    | error cause =>
      rw [same] at failed
      cases failed
      exact .inr ⟨cause, rfl, rfl⟩
  · next defective =>
    cases failed
    exact .inl ⟨rfl, fun empty => defective (List.isEmpty_iff.mpr empty)⟩

end PascalCompiler
