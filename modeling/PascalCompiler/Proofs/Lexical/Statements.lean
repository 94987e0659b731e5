import PascalCompiler.Generation.File
import PascalCompiler.Proofs.Lexical.Levels

/-!
# Generated statements have the translated text

Generation walks a tree with the nodes around it at hand and looks names up in
the innermost scope attached to one of them. Where that scope mirrors the levels
of the lexical translator, the script of an expression or statement is printed
as the translator's text, and one fails where the other does.

## Main definitions

* `Lexical.Renders`: a computation and the text it has, or the failure of both
* `Lexical.Agrees`: a context whose innermost scope mirrors the levels

## Main results

* `Lexical.renders_expr`, `Lexical.renders_stmt`: generation renders the text
-/

namespace PascalCompiler.Lexical

open Generation (answer)

/-! ### Computations and texts -/

section Renders

variable {α β γ δ : Type}

/-- A computation that succeeds prints as the text, one that fails has none. -/
def Renders (print : α → β) (result : Except GenerationError α) (text : Option β) : Prop :=
  result.toOption.map print = text

namespace Renders

variable {context : Context} {print : α → β} {print' : γ → δ} {text : Option β}
variable {descent : Descent α} {more : β → Option δ} {next : α → Descent γ}

theorem pure {a : α} {b : β} (same : print a = b) :
    Renders print (answer context (Pure.pure a)) (some b) := by
  rw [← same]
  rfl

theorem error (e : GenerationError) : Renders print (.error e) none :=
  rfl

/-- One step after the other renders one text after the other. -/
theorem bind (first : Renders print (answer context descent) text)
    (rest : ∀ a, Renders print' (answer context (next a)) (more (print a))) :
    Renders print' (answer context (descent >>= next)) (text >>= more) := by
  subst first
  rw [Generation.answer_bind]
  cases answer context descent with
  | error e => rfl
  | ok a => exact rest a

/-- What looks at the visited nodes and cannot fail has no text. -/
theorem look {tell : Context → Except GenerationError α} {a : α} (told : tell context = .ok a)
    {text : Option δ} (rest : Renders print' (answer context (next a)) text) :
    Renders print' (answer context (Visiting.look tell >>= next)) text := by
  rw [Generation.answer_bind, Generation.answer_look, told]
  exact rest

theorem visit {node : Node} (inside : Renders print (answer (context.enter node) descent) text) :
    Renders print (answer context (Visiting.visit node descent)) text :=
  inside

theorem bind_error (error : α → GenerationError)
    (fails : ∀ a, answer context (next a) = .error (error a)) :
    Renders print' (answer context (descent >>= next)) none := by
  rw [Generation.answer_bind]
  cases answer context descent with
  | error e => rfl
  | ok a => exact congrArg (fun result => result.toOption.map print') (fails a)

end Renders

end Renders

/-! ### Scopes and levels -/

/-- The innermost scope at hand mirrors the levels. -/
def Agrees (context : Context) (levels : List Level) : Prop :=
  ∃ scope, context.scope? = some scope ∧ Mirrors scope.tables levels

section Agrees

variable {context : Context} {levels : List Level}

/-- A node without a scope does not change what is visible. -/
theorem Agrees.enter (agrees : Agrees context levels) (node : Node) (plain : node.scope = none) :
    Agrees (context.enter node) levels := by
  obtain ⟨scope, found, mirrors⟩ := agrees
  refine ⟨scope, ?_, mirrors⟩
  simpa [Context.scope?, Context.enter, plain] using found

/-- A name can be invoked unless it is read. -/
theorem Agrees.canInvoke (agrees : Agrees context levels) (name : String) :
    ∃ scope, context.scope = .ok scope ∧ scope.canInvoke name = !isRead levels name := by
  obtain ⟨scope, found, mirrors⟩ := agrees
  have kindOf : scope.kindOf name = (find? levels (Lowercase.lowerText name)).getD .unknown := by
    rw [Scope.kindOf, mirrors.find, NameTable.key]
  refine ⟨scope, by rw [Context.scope, found], ?_⟩
  rw [Scope.canInvoke, kindOf, isRead]
  -- an unknown name can be invoked, and a declared one is of one of four kinds
  cases denoted : find? levels (Lowercase.lowerText name) with
  | none => rfl
  | some kind =>
    obtain rfl | rfl | rfl | rfl := mirrors.known _ _ denoted <;> decide

end Agrees

/-! ### Names and signs -/

theorem commas_eq (texts : List String) : Script.commas texts = commas texts := by
  fun_induction commas texts with
  | case1 => rfl
  | case2 text => exact String.intercalate_singleton
  | case3 text rest nonempty ih =>
    rw [← ih]
    exact String.intercalate_cons_of_ne_nil nonempty

theorem nameOf_eq_none {i : Ident} (empty : i.name = "") : nameOf (some i) = none := by
  simp [nameOf, Option.filter, empty]

theorem nameOf_eq_some {i : Ident} (named : i.name ≠ "") : nameOf (some i) = some i.name := by
  simp [nameOf, Option.filter, named]

theorem renders_nameOf (context : Context) (identifier : Option Ident) :
    Renders id (answer context (Generation.nameOf identifier)) (ident identifier) := by
  cases identifier with
  | none => exact .error _
  | some i =>
    rw [Generation.nameOf]
    split
    · next empty =>
      rw [ident, nameOf_eq_none empty]
      exact .error _
    · next named =>
      rw [ident, nameOf_eq_some named]
      exact .pure rfl

theorem spelling_ofSource? (op : String) :
    (Script.Operator.ofSource? op).map Script.Operator.spelling = operator op := by
  simp only [Script.Operator.ofSource?, operator]
  generalize Lowercase.lowerText op = key
  by_cases plus : key = "+"
  · simp [plus, Script.Operator.spelling]
  by_cases equal : key = "="
  · simp [equal, Script.Operator.spelling, List.lookup_cons]
  by_cases unequal : key = "<>"
  · simp [unequal, Script.Operator.spelling, List.lookup_cons]
  by_cases both : key = "and"
  · simp [both, Script.Operator.spelling, List.lookup_cons]
  · simp [plus, equal, unequal, both, List.lookup_cons, beq_eq_false_iff_ne.2 plus,
      beq_eq_false_iff_ne.2 equal, beq_eq_false_iff_ne.2 unequal, beq_eq_false_iff_ne.2 both]

theorem renders_callTarget (context : Context) (target : Option Ident) :
    Renders Ident.name (answer context (Generation.callTarget target)) (nameOf target) := by
  cases target with
  | none => exact .error _
  | some i =>
    by_cases empty : i.name = ""
    · rw [Generation.callTarget, Generation.nameOf, if_pos empty, nameOf_eq_none empty]
      exact .error _
    · rw [Generation.callTarget, Generation.nameOf, if_neg empty, nameOf_eq_some empty]
      exact .pure rfl

/-! ### Expressions -/

section Trees

variable {levels : List Level}

mutual

/-- The script of an expression is printed as its text. -/
theorem renders_expr {context : Context} (agrees : Agrees context levels) :
    ∀ e : Expr, Renders Script.Expr.print (answer context (Generation.expr e)) (expr levels e)
  | .text _ value => by
    rw [Generation.expr, expr]
    exact .pure (Script.Expr.print.eq_1 value)
  | .integer _ value => by
    rw [Generation.expr, expr]
    exact .pure rfl
  | .control position code => by
    rw [Generation.expr, expr, Generation.controlCode]
    -- the code point is refused on either side of the range
    by_cases negative : code < 0
    · rw [if_pos negative, if_neg (by omega)]
      exact .error _
    · by_cases beyond : 0x10FFFF < code
      · rw [if_neg negative, if_pos beyond, if_neg (by omega)]
        exact .error _
      · rw [if_neg negative, if_neg beyond, if_pos (by omega)]
        exact .pure rfl
  | .parens position inner => by
    rw [Generation.expr, expr]
    exact .visit ((renders_expr? (agrees.enter _ rfl) inner).bind fun _ => .pure rfl)
  | .binary position op left right => by
    rw [Generation.expr, expr, ← spelling_ofSource?]
    apply Renders.visit
    cases Script.Operator.ofSource? op with
    | none => exact .error _
    | some sign =>
      exact (renders_expr? (agrees.enter _ rfl) left).bind fun _ =>
        (renders_expr? (agrees.enter _ rfl) right).bind fun _ => .pure rfl
  | .call position target args => by
    rw [Generation.expr, expr]
    refine .visit ((renders_callTarget _ target).bind fun callee => ?_)
    have inside := agrees.enter (.expr (.call position target args)) rfl
    -- only without arguments does it matter what the name denotes
    cases args with
    | nil =>
      obtain ⟨scope, found, invoked⟩ := inside.canInvoke callee.name
      rw [exprs]
      refine .look found (.pure ?_)
      rw [invoked]
      cases isRead levels callee.name <;>
        simp [Script.Expr.print, Script.Expr.printAll, commas_eq, commas, String.append_assoc]
    | cons first rest =>
      refine (renders_exprs inside (first :: rest)).bind fun texts => .pure ?_
      rw [Script.Expr.print, commas_eq, Script.Expr.printAll_eq]
      simp [String.append_assoc]
  | .setOf position elements => by
    rw [Generation.expr, expr]
    refine .visit ((renders_setElements (agrees.enter _ rfl) elements).bind fun texts => .pure ?_)
    rw [Script.Expr.print, commas_eq, Script.Expr.printAll_eq]

theorem renders_expr? {context : Context} (agrees : Agrees context levels) :
    ∀ e : Option Expr,
      Renders Script.Expr.print (answer context (Generation.expr? e)) (expr? levels e)
  | none => by
    rw [Generation.expr?, expr?]
    exact .error _
  | some e => by
    rw [Generation.expr?, expr?]
    exact renders_expr agrees e

theorem renders_exprs {context : Context} (agrees : Agrees context levels) :
    ∀ list : List (Option Expr),
      Renders (List.map Script.Expr.print) (answer context (Generation.exprs list))
        (exprs levels list)
  | [] => by
    rw [Generation.exprs, exprs]
    exact .pure rfl
  | e :: rest => by
    rw [Generation.exprs, exprs]
    exact (renders_expr? agrees e).bind fun _ => (renders_exprs agrees rest).bind fun _ => .pure rfl

theorem renders_setElement {context : Context} (agrees : Agrees context levels) :
    ∀ e : Option Element,
      Renders Script.Expr.print (answer context (Generation.setElement e)) (setElement levels e)
  | none => by
    rw [Generation.setElement, setElement]
    exact .error _
  | some (.range range) => by
    rw [Generation.setElement, setElement]
    exact .error _
  | some (.expr e) => by
    rw [Generation.setElement, setElement]
    exact renders_expr agrees e

theorem renders_setElements {context : Context} (agrees : Agrees context levels) :
    ∀ list : List (Option Element),
      Renders (List.map Script.Expr.print) (answer context (Generation.setElements list))
        (setElements levels list)
  | [] => by
    rw [Generation.setElements, setElements]
    exact .pure rfl
  | e :: rest => by
    rw [Generation.setElements, setElements]
    exact (renders_setElement agrees e).bind fun _ =>
      (renders_setElements agrees rest).bind fun _ => .pure rfl

end

/-! ### Statements -/

/-- Statements in a row have their text in braces or not. -/
theorem print_block (bare : Bool) (list : List Script.Stmt) :
    (Script.Stmt.block (!bare) list).print = inBraces (!bare) (Script.Stmt.printAll list) := by
  cases bare <;> rfl

theorem renders_assignmentTarget (context : Context) (target : Option Ident) :
    Renders id (answer context (Generation.assignmentTarget target)) (ident target) := by
  cases target with
  | none => exact .error _
  | some i => exact renders_nameOf context (some i)

mutual

/-- The script of a statement is printed as its text. -/
theorem renders_stmt {context : Context} (agrees : Agrees context levels)
    (apart : context.currentIs .block = false) :
    ∀ s : Stmt, Renders Script.Stmt.print (answer context (Generation.stmt s)) (stmt levels s)
  | .assign position target op source => by
    rw [Generation.stmt, stmt]
    apply Renders.visit
    -- generation looks at the target first, but fails in any case
    split
    · exact (renders_assignmentTarget _ target).bind fun _ =>
        (renders_expr? (agrees.enter _ rfl) source).bind fun _ => .pure rfl
    · exact .bind_error _ fun _ => rfl
  | .call position target args => by
    rw [Generation.stmt, stmt]
    refine .visit ((renders_callTarget _ target).bind fun callee => ?_)
    refine (renders_exprs (agrees.enter _ rfl) args).bind fun args => .pure ?_
    rw [Script.Stmt.print, commas_eq, Script.Expr.printAll_eq]
  | .compound value => by
    rw [Generation.stmt, stmt, ← apart]
    exact renders_compound agrees value
  | .ifThen position condition onTrue none => by
    rw [Generation.stmt, stmt]
    refine .visit ((renders_expr? (agrees.enter _ rfl) condition).bind fun _ => ?_)
    refine (renders_branch (agrees.enter _ rfl) rfl onTrue).bind fun _ => ?_
    rw [branch]
    refine .pure ?_
    rw [Script.Stmt.print, String.append_empty]
  | .ifThen position condition onTrue (some onFalse) => by
    rw [Generation.stmt, stmt]
    refine .visit ((renders_expr? (agrees.enter _ rfl) condition).bind fun _ => ?_)
    refine (renders_branch (agrees.enter _ rfl) rfl onTrue).bind fun _ => ?_
    rw [branch]
    simp only [bind_assoc]
    refine (renders_stmt (agrees.enter _ rfl) rfl onFalse).bind fun _ => .pure ?_
    rw [Script.Stmt.print, String.append_assoc]
  | .tryExcept position body none => by
    rw [Generation.stmt, stmt, handlers?]
    refine .visit ((renders_stmts (agrees.enter _ rfl) rfl body).bind fun _ => .pure ?_)
    rw [Script.Stmt.print, Script.Stmt.printAll]
  | .tryExcept position body (some (.all handlers)) => by
    rw [Generation.stmt, stmt, handlers?]
    exact .visit ((renders_stmts (agrees.enter _ rfl) rfl body).bind fun _ =>
      (renders_stmts (agrees.enter _ rfl) rfl handlers).bind fun _ => .pure rfl)
  | .tryExcept position body (some (.clause clause)) => by
    -- a clause is refused, whatever the body is
    rw [Generation.stmt, stmt, handlers?]
    cases stmts levels body <;> rfl
  | .tryFinally position body cleanup => by
    rw [Generation.stmt, stmt]
    exact .visit ((renders_stmts (agrees.enter _ rfl) rfl body).bind fun _ =>
      (renders_stmts (agrees.enter _ rfl) rfl cleanup).bind fun _ => .pure rfl)

theorem renders_branch {context : Context} (agrees : Agrees context levels)
    (apart : context.currentIs .block = false) :
    ∀ s : Option Stmt,
      Renders Script.Stmt.print (answer context (Generation.branch s)) (branch levels ";" "" s)
  | none => by
    rw [Generation.branch, branch]
    exact .pure rfl
  | some s => by
    rw [Generation.branch, branch]
    simpa using renders_stmt agrees apart s

/-- The script of a compound statement is printed as its text. The flag of the
translator is set where the innermost node is a block. -/
theorem renders_compound {context : Context} (agrees : Agrees context levels) :
    ∀ value : Compound,
      Renders Script.Stmt.print (answer context (Generation.compound value))
        (compound levels (context.currentIs .block) value)
  | ⟨position, body⟩ => by
    rw [Generation.compound, compound,
      ← context.parentIs_enter (.stmt (.compound ⟨position, body⟩))]
    refine .visit (.look rfl ((renders_stmts (agrees.enter _ rfl) rfl body).bind fun _ => .pure ?_))
    exact print_block _ _

theorem renders_stmt? {context : Context} (agrees : Agrees context levels)
    (apart : context.currentIs .block = false) :
    ∀ s : Option Stmt,
      Renders Script.Stmt.print (answer context (Generation.stmt? s)) (stmt? levels s)
  | none => by
    rw [Generation.stmt?, stmt?]
    exact .error _
  | some s => by
    rw [Generation.stmt?, stmt?]
    exact renders_stmt agrees apart s

theorem renders_stmts {context : Context} (agrees : Agrees context levels)
    (apart : context.currentIs .block = false) :
    ∀ list : List (Option Stmt),
      Renders Script.Stmt.printAll (answer context (Generation.stmts list)) (stmts levels list)
  | [] => by
    rw [Generation.stmts, stmts]
    exact .pure rfl
  | s :: rest => by
    rw [Generation.stmts, stmts]
    exact (renders_stmt? agrees apart s).bind fun _ =>
      (renders_stmts agrees apart rest).bind fun _ => .pure rfl

end

end Trees

end PascalCompiler.Lexical
