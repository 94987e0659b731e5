import PascalCompiler.Proofs.Ecma.Unambiguity
import PascalCompiler.Proofs.Generation.Outcome
import PascalCompiler.Proofs.Lexical.Statements
import PascalCompiler.Proofs.Script.Names
import PascalCompiler.Proofs.Tree.Operation

/-!
# How generated operations are grouped

Operands are written as they are, so the text of an operation is read as the
operation again only if its operands bind strongly enough. Every node of an
expression has a counterpart in the expressions of ECMAScript. The text that is
generated for the expression has these counterparts as its tree precisely if the
expression respects the precedences of ECMAScript.

Expressions of Pascal sources respect other precedences. They are regrouped where a
conjunction is an operand of another operator.

## Main definitions

* `Expr.tree`: the counterpart of an expression, node by node

## Main results

* `Generation.writes_expr`: the text of an expression has the tokens of its counterpart
* `Expr.proper_tree_iff`: when the counterpart is the tree of its tokens
* `Generation.grouping_kept_iff`, `Generation.source_grouping_kept_iff`: when the text has the
  counterpart as its tree
-/

namespace PascalCompiler

/-! ### Counterparts -/

/-- The tree of an integer. -/
def integerTree : Int → Ecma.Tree
  | .ofNat n => .number (.ofList (Nat.toDigits 10 n))
  | .negSucc n => .negation (.number (.ofList (Nat.toDigits 10 (n + 1))))

/-- The tree of a call. Without arguments, a name may be read instead. -/
def callTree (reads : String → Bool) (name : String) (args : List Ecma.Tree) : Ecma.Tree :=
  if args.isEmpty && reads name then .identifier (Script.identifier name)
  else .call (.identifier (Script.identifier name)) args

namespace Expr

mutual

/-- The counterpart of an expression, node by node, where `reads` tells which names
are read and not called if they stand without arguments. -/
def tree (reads : String → Bool) : Expr → Option Ecma.Tree
  | .text _ value => some (.text (Script.quote value))
  | .control _ code => some (.text (Script.codeLiteral code.toNat))
  | .integer _ value => some (integerTree value)
  | .parens _ inner => do
    return .group (← tree? reads inner)
  | .binary _ op left right => do
    let sign ← Lexical.operator op
    let first ← tree? reads left
    let second ← tree? reads right
    return .binary sign first second
  | .call _ target args => do
    let ident ← target
    return callTree reads ident.name (← trees reads args)
  | .setOf _ elements => do
    return .array (← elementTrees reads elements)

/-- The counterpart of an expression that must be there. -/
def tree? (reads : String → Bool) : Option Expr → Option Ecma.Tree
  | none => none
  | some e => tree reads e

/-- The counterparts of a list of expressions. -/
def trees (reads : String → Bool) : List (Option Expr) → Option (List Ecma.Tree)
  | [] => some []
  | e :: rest => do
    let first ← tree? reads e
    let others ← trees reads rest
    return first :: others

/-- The counterpart of an element of a set constructor. A range has none. -/
def elementTree (reads : String → Bool) : Option Element → Option Ecma.Tree
  | some (.expr e) => tree reads e
  | _ => none

/-- The counterparts of the elements of a set constructor. -/
def elementTrees (reads : String → Bool) : List (Option Element) → Option (List Ecma.Tree)
  | [] => some []
  | e :: rest => do
    let first ← elementTree reads e
    let others ← elementTrees reads rest
    return first :: others

end

section Inversion

variable {reads : String → Bool} {position : Position} {t : Ecma.Tree} {list : List Ecma.Tree}

theorem exists_of_tree_parens {inner : Option Expr}
    (same : (parens position inner).tree reads = some t) :
    ∃ tree, tree? reads inner = some tree ∧ .group tree = t := by
  simpa [tree, Option.bind_eq_some_iff] using same

theorem exists_of_tree_binary {op : String} {left right : Option Expr}
    (same : (binary position op left right).tree reads = some t) :
    ∃ operator first second, Script.Operator.ofSource? op = some operator ∧
      tree? reads left = some first ∧ tree? reads right = some second ∧
      .binary operator.spelling first second = t := by
  rw [tree, ← Lexical.spelling_ofSource?] at same
  simpa [Option.bind_eq_some_iff] using same

theorem exists_of_tree_call {target : Option Ident} {args : List (Option Expr)}
    (same : (call position target args).tree reads = some t) :
    ∃ name list, trees reads args = some list ∧ callTree reads name list = t := by
  obtain ⟨ident, -, list, isList, rfl⟩ : ∃ ident, target = some ident ∧
      ∃ list, trees reads args = some list ∧ callTree reads ident.name list = t := by
    simpa [tree, Option.bind_eq_some_iff] using same
  exact ⟨ident.name, list, isList, rfl⟩

theorem exists_of_tree_setOf {elements : List (Option Element)}
    (same : (setOf position elements).tree reads = some t) :
    ∃ list, elementTrees reads elements = some list ∧ .array list = t := by
  simpa [tree, Option.bind_eq_some_iff] using same

theorem exists_of_trees_cons {e : Option Expr} {rest : List (Option Expr)}
    (same : trees reads (e :: rest) = some list) :
    ∃ first others, tree? reads e = some first ∧ trees reads rest = some others ∧
      first :: others = list := by
  simpa [trees, Option.bind_eq_some_iff] using same

theorem exists_of_elementTrees_cons {e : Option Element} {rest : List (Option Element)}
    (same : elementTrees reads (e :: rest) = some list) :
    ∃ first others, elementTree reads e = some first ∧ elementTrees reads rest = some others ∧
      first :: others = list := by
  simpa [elementTrees, Option.bind_eq_some_iff] using same

end Inversion

theorem trees_cons_ne_nil {reads : String → Bool} (e : Option Expr) (rest : List (Option Expr)) :
    trees reads (e :: rest) ≠ some [] := by
  rw [trees]
  cases tree? reads e <;> cases trees reads rest <;> simp

end Expr

/-- The name is one that is read if it stands without arguments: the innermost scope
has it and it cannot be invoked. -/
def Context.reads (context : Context) (name : String) : Bool :=
  context.scope?.any fun scope => !scope.canInvoke name

/-! ### The tokens of counterparts -/

/-- The value of a computation that succeeds has the property. -/
def Yields {ε α : Type} (p : α → Prop) (result : Except ε α) : Prop :=
  ∀ a, result = .ok a → p a

namespace Yields

variable {ε α β : Type} {p : α → Prop} {q : β → Prop}

theorem ok {a : α} (holds : p a) : Yields p (.ok a : Except ε α) := by
  intro b same
  cases same
  exact holds

theorem error (e : ε) : Yields p (.error e) :=
  fun _ same => nomatch same

theorem any {result : Except ε α} : Yields (fun _ => True) result :=
  fun _ _ => trivial

section Descents

open Generation (answer)

variable {context : Context}

theorem pure {a : α} (holds : p a) : Yields p (answer context (Pure.pure a)) :=
  ok holds

theorem bind {descent : Descent α} {next : α → Descent β}
    (first : Yields p (answer context descent))
    (rest : ∀ a, p a → Yields q (answer context (next a))) :
    Yields q (answer context (descent >>= next)) := by
  rw [Generation.answer_bind]
  cases result : answer context descent with
  | error e => exact error e
  | ok a => exact rest a (first a result)

theorem visit {node : Node} {descent : Descent α}
    (inside : Yields p (answer (context.enter node) descent)) :
    Yields p (answer context (Visiting.visit node descent)) :=
  inside

theorem parentIs {node : Node} {kind : Kind} :
    Yields (· = context.currentIs kind)
      (answer (context.enter node) (Generation.parentIs kind)) :=
  ok (context.parentIs_enter node kind)

end Descents

end Yields

namespace Generation

theorem yields_callTarget (context : Context) (target : Option Ident) :
    Yields (fun ident => target = some ident) (answer context (callTarget target)) := by
  cases target with
  | none => exact .error _
  | some ident => exact .visit (.bind .any fun _ _ => .pure rfl)

theorem yields_controlCode (code : Int) :
    Yields (fun number => number = code.toNat) (controlCode code) := by
  rw [controlCode]
  split
  · exact .error _
  · split
    · exact .error _
    · exact .ok rfl

/-- A name without arguments is read if the innermost scope says so. -/
theorem yields_scope (context : Context) (name : String) :
    Yields (fun scope => context.reads name = !scope.canInvoke name)
      (answer context (Visiting.look Context.scope)) := by
  rw [answer_look, Context.scope, Context.reads]
  cases context.scope? with
  | none => exact .error _
  | some scope => exact .ok rfl

/-- The tree is the counterpart of an expression and has the tokens of the script. -/
def Writes (e : Option Ecma.Tree) (script : Script.Expr) : Prop :=
  ∃ tree, e = some tree ∧ tree.tokens = script.tokens

/-- The trees are the counterparts of expressions and have the tokens of the scripts. -/
def WritesAll (list : Option (List Ecma.Tree)) (scripts : List Script.Expr) : Prop :=
  ∃ trees, list = some trees ∧ Ecma.Tree.tokensAll trees = Script.Expr.tokensAll scripts

section Writes

variable {e left right : Option Ecma.Tree} {list : Option (List Ecma.Tree)}
  {script first second : Script.Expr} {scripts : List Script.Expr}

theorem Writes.parens (inner : Writes e script) :
    Writes (do return .group (← e)) (.parens script) := by
  obtain ⟨tree, rfl, same⟩ := inner
  refine ⟨.group tree, rfl, ?_⟩
  rw [Ecma.Tree.tokens, Script.Expr.tokens, same, Script.parenthesised]

theorem Writes.binary (operator : Script.Operator) (hLeft : Writes left first)
    (hRight : Writes right second) :
    Writes (do return .binary operator.spelling (← left) (← right))
      (.binary operator first second) := by
  obtain ⟨tree, rfl, same⟩ := hLeft
  obtain ⟨tree', rfl, same'⟩ := hRight
  refine ⟨.binary operator.spelling tree tree', rfl, ?_⟩
  rw [Ecma.Tree.tokens, Script.Expr.tokens, same, same']

theorem WritesAll.cons (here : Writes e script) (others : WritesAll list scripts) :
    WritesAll (do return (← e) :: (← list)) (script :: scripts) := by
  obtain ⟨tree, rfl, same⟩ := here
  obtain ⟨trees, rfl, behind⟩ := others
  refine ⟨tree :: trees, rfl, ?_⟩
  rw [Ecma.Tree.tokensAll, Script.Expr.tokensAll, same, behind]

theorem WritesAll.array (all : WritesAll list scripts) :
    Writes (do return .array (← list)) (.array scripts) := by
  obtain ⟨trees, rfl, same⟩ := all
  refine ⟨.array trees, rfl, ?_⟩
  rw [Ecma.Tree.tokens, Script.Expr.tokens, same]

/-- Without arguments, a name is read or called. -/
theorem Writes.name {reads : String → Bool} {name : String} {invoked : Bool}
    (same : reads name = !invoked) :
    Writes (some (callTree reads name []))
      (if invoked then .call (Script.identifier name) [] else .name (Script.identifier name)) := by
  refine ⟨_, rfl, ?_⟩
  rw [callTree, same]
  cases invoked <;> rfl

theorem WritesAll.call {reads : String → Bool} {name : String} (all : WritesAll list scripts)
    (nonempty : list ≠ some []) :
    Writes (do return callTree reads name (← list)) (.call (Script.identifier name) scripts) := by
  obtain ⟨trees, rfl, same⟩ := all
  refine ⟨callTree reads name trees, rfl, ?_⟩
  have notEmpty : trees ≠ [] := fun empty => nonempty (congrArg some empty)
  rw [callTree, if_neg (by simp [notEmpty]), Ecma.Tree.tokens, Script.Expr.tokens, same]
  rfl

end Writes

mutual

/-- The script of an expression has the tokens of its counterpart. -/
theorem writes_expr (context : Context) :
    ∀ e : Expr, Yields (Writes (e.tree context.reads)) (answer context (expr e))
  | .text _ value => by
    rw [expr, Expr.tree]
    exact .pure ⟨_, rfl, rfl⟩
  | .control _ code => by
    have isCode := yields_controlCode code
    rw [expr, Expr.tree]
    split
    · next number same =>
      rw [← isCode number same]
      exact .pure ⟨_, rfl, rfl⟩
    · exact .error _
  | .integer _ value => by
    rw [expr, Expr.tree]
    refine .pure ⟨_, rfl, ?_⟩
    cases value <;> rfl
  | .parens position inner => by
    rw [expr, Expr.tree]
    exact .visit (.bind (writes_expr? (context.enter _) inner) fun _ inner => .pure inner.parens)
  | .binary position op left right => by
    rw [expr, Expr.tree, ← Lexical.spelling_ofSource?]
    apply Yields.visit
    cases Script.Operator.ofSource? op with
    | none => exact .error _
    | some operator =>
      exact .bind (writes_expr? (context.enter _) left) fun _ first =>
        .bind (writes_expr? (context.enter _) right) fun _ second =>
        .pure (first.binary operator second)
  | .call position target args => by
    rw [expr, Expr.tree]
    refine .visit (.bind (yields_callTarget _ target) fun ident same => ?_)
    subst same
    cases args with
    | nil =>
      rw [Expr.trees]
      exact .bind (yields_scope (context.enter _) ident.name) fun _ reads => .pure (.name reads)
    | cons arg args =>
      exact .bind (writes_exprs (context.enter _) (arg :: args)) fun _ all =>
        .pure (all.call (Expr.trees_cons_ne_nil arg args))
  | .setOf position elements => by
    rw [expr, Expr.tree]
    exact .visit (.bind (writes_setElements (context.enter _) elements) fun _ all =>
      .pure all.array)

theorem writes_expr? (context : Context) :
    ∀ e : Option Expr, Yields (Writes (Expr.tree? context.reads e)) (answer context (expr? e))
  | none => by
    rw [expr?]
    exact .error _
  | some e => by
    rw [expr?, Expr.tree?]
    exact writes_expr context e

theorem writes_exprs (context : Context) :
    ∀ list : List (Option Expr),
      Yields (WritesAll (Expr.trees context.reads list)) (answer context (exprs list))
  | [] => by
    rw [exprs, Expr.trees]
    exact .pure ⟨[], rfl, rfl⟩
  | e :: rest => by
    rw [exprs, Expr.trees]
    exact .bind (writes_expr? context e) fun _ first =>
      .bind (writes_exprs context rest) fun _ others => .pure (WritesAll.cons first others)

theorem writes_setElement (context : Context) :
    ∀ element : Option Element,
      Yields (Writes (Expr.elementTree context.reads element)) (answer context (setElement element))
  | none => by
    rw [setElement]
    exact .error _
  | some (.range range) => by
    rw [setElement]
    exact .error _
  | some (.expr e) => by
    rw [setElement, Expr.elementTree]
    exact writes_expr context e

theorem writes_setElements (context : Context) :
    ∀ list : List (Option Element),
      Yields (WritesAll (Expr.elementTrees context.reads list)) (answer context (setElements list))
  | [] => by
    rw [setElements, Expr.elementTrees]
    exact .pure ⟨[], rfl, rfl⟩
  | e :: rest => by
    rw [setElements, Expr.elementTrees]
    exact .bind (writes_setElement context e) fun _ first =>
      .bind (writes_setElements context rest) fun _ others => .pure (WritesAll.cons first others)

end

end Generation

/-! ### Proper counterparts -/

section Proper

variable {reads : String → Bool}

theorem strength_integerTree (value : Int) : (integerTree value).strength = 4 := by
  cases value <;> rfl

theorem proper_integerTree (value : Int) : (integerTree value).Proper := by
  cases value with
  | ofNat n => exact (Ecma.Parses.operand (.member (.number _))).proper
  | negSucc n => exact (Ecma.Parses.negation (.operand (.member (.number _)))).proper

theorem strength_callTree (name : String) (args : List Ecma.Tree) :
    (callTree reads name args).strength = 4 := by
  rw [callTree]
  split <;> rfl

theorem proper_callTree_iff {name : String} {args : List Ecma.Tree} :
    (callTree reads name args).Proper ↔ ∀ arg ∈ args, arg.Proper := by
  rw [callTree]
  split
  · next bare =>
    have none : args = [] := by simp_all
    rw [none]
    exact iff_of_true (Ecma.Parses.operand (.member (.identifier _))).proper nofun
  · exact Ecma.proper_call_iff

theorem strength_spelling (operator : Script.Operator) :
    Ecma.strength operator.spelling = operator.precedence := by
  cases operator <;> rfl

/-- The counterpart of an operation binds as strongly as its operator, and all other
counterparts the strongest. -/
theorem Expr.strength_tree {e : Expr} {tree : Ecma.Tree} (same : e.tree reads = some tree) :
    tree.strength = (e.operator?.map Script.Operator.precedence).getD 4 := by
  cases e with
  | text | control =>
    cases same
    rfl
  | integer position value =>
    cases same
    exact strength_integerTree value
  | parens position inner =>
    obtain ⟨_, -, rfl⟩ := exists_of_tree_parens same
    rfl
  | setOf position elements =>
    obtain ⟨_, -, rfl⟩ := exists_of_tree_setOf same
    rfl
  | binary position op left right =>
    obtain ⟨operator, _, _, isOperator, -, -, rfl⟩ := exists_of_tree_binary same
    rw [Expr.operator?, isOperator]
    exact strength_spelling operator
  | call position target args =>
    obtain ⟨name, list, -, rfl⟩ := exists_of_tree_call same
    exact strength_callTree name list

theorem strength_iff_forall_mem {value : Option Expr} {tree : Ecma.Tree}
    (same : Expr.tree? reads value = some tree) (p : Nat → Prop) (strong : p 4) :
    p tree.strength ↔ ∀ inner ∈ value.bind Expr.operator?, p inner.precedence := by
  cases value with
  | none => cases same
  | some e =>
    rw [Expr.strength_tree same, Option.bind_some]
    cases e.operator? <;> simp [strong]

mutual

/-- The counterpart of an expression is the tree of its tokens if the operations in
the expression respect the precedences of scripts. -/
theorem Expr.proper_tree_iff : ∀ {e : Expr} {tree : Ecma.Tree}, e.tree reads = some tree →
    (tree.Proper ↔ (Node.expr e).Respects Script.Operator.precedence)
  | .text _ value, tree, same => by
    cases same
    exact iff_of_true (Ecma.Parses.operand (.member (.text _))).proper
      (all_text.mpr trivial)
  | .control _ code, tree, same => by
    cases same
    exact iff_of_true (Ecma.Parses.operand (.member (.text _))).proper
      (all_control.mpr trivial)
  | .integer _ value, tree, same => by
    cases same
    exact iff_of_true (proper_integerTree value)
      (all_integer.mpr trivial)
  | .parens position inner, tree, same => by
    obtain ⟨innerTree, isInner, rfl⟩ := exists_of_tree_parens same
    rw [Ecma.proper_group_iff, Node.Respects, all_parens]
    simp only [Node.Operation, true_and]
    exact Expr.proper_tree?_iff isInner
  | .binary position op left right, tree, same => by
    obtain ⟨operator, first, second, isOperator, isFirst, isSecond, rfl⟩ :=
      exists_of_tree_binary same
    have known : operator.spelling ∈ Ecma.operators := by cases operator <;> decide
    have weaker : operator.precedence < 4 := by cases operator <;> decide
    -- an operand that is no operation binds the strongest, so only operations count
    have atLeast := strength_iff_forall_mem isFirst (operator.precedence ≤ ·) (Nat.le_of_lt weaker)
    have more := strength_iff_forall_mem isSecond (operator.precedence < ·) weaker
    rw [Ecma.proper_binary_iff known, strength_spelling, Expr.proper_tree?_iff isFirst,
      Expr.proper_tree?_iff isSecond, atLeast, more, Node.Respects, all_binary,
      Node.Operation, Binds, isOperator]
    simp only [Option.mem_some_iff, forall_eq']
    exact and_assoc.symm.trans and_comm
  | .call position target args, tree, same => by
    obtain ⟨name, list, areArgs, rfl⟩ := exists_of_tree_call same
    rw [proper_callTree_iff, Node.Respects, all_callExpr]
    simp only [Node.Operation, implies_true, true_and]
    exact Expr.proper_trees_iff areArgs
  | .setOf position elements, tree, same => by
    obtain ⟨list, areElements, rfl⟩ := exists_of_tree_setOf same
    rw [Ecma.proper_array_iff, Node.Respects, all_setOf]
    simp only [Node.Operation, true_and]
    exact Expr.proper_elementTrees_iff areElements

theorem Expr.proper_tree?_iff : ∀ {value : Option Expr} {tree : Ecma.Tree},
    Expr.tree? reads value = some tree →
    (tree.Proper ↔ ∀ e ∈ value, (Node.expr e).Respects Script.Operator.precedence)
  | some e, tree, same => by
    simpa using Expr.proper_tree_iff same

theorem Expr.proper_trees_iff : ∀ {list : List (Option Expr)} {trees : List Ecma.Tree},
    Expr.trees reads list = some trees →
    ((∀ tree ∈ trees, tree.Proper) ↔
      ∀ value ∈ list, ∀ e ∈ value, (Node.expr e).Respects Script.Operator.precedence)
  | [], trees, same => by
    cases same
    exact iff_of_true nofun nofun
  | value :: rest, trees, same => by
    obtain ⟨first, others, isFirst, areOthers, rfl⟩ := exists_of_trees_cons same
    rw [List.forall_mem_cons, List.forall_mem_cons, Expr.proper_tree?_iff isFirst,
      Expr.proper_trees_iff areOthers]

theorem Expr.proper_elementTree_iff : ∀ {value : Option Element} {tree : Ecma.Tree},
    Expr.elementTree reads value = some tree →
    (tree.Proper ↔ ∀ e ∈ value, e.node.Respects Script.Operator.precedence)
  | some (.expr e), tree, same => by
    simpa [Element.node] using Expr.proper_tree_iff same

theorem Expr.proper_elementTrees_iff : ∀ {list : List (Option Element)} {trees : List Ecma.Tree},
    Expr.elementTrees reads list = some trees →
    ((∀ tree ∈ trees, tree.Proper) ↔
      ∀ value ∈ list, ∀ e ∈ value, e.node.Respects Script.Operator.precedence)
  | [], trees, same => by
    cases same
    exact iff_of_true nofun nofun
  | value :: rest, trees, same => by
    obtain ⟨first, others, isFirst, areOthers, rfl⟩ := exists_of_elementTrees_cons same
    rw [List.forall_mem_cons, List.forall_mem_cons, Expr.proper_elementTree_iff isFirst,
      Expr.proper_elementTrees_iff areOthers]

end

end Proper

/-! ### The text of an expression -/

section Texts

variable {alphabet : Ecma.Alphabet} {context : Context} {e : Expr} {script : Script.Expr}

/-- The text of an expression has one list of tokens, and these have one tree. -/
theorem Generation.exists_parse
    (identifiers : ∀ ident : Ident, (Node.expr e).Within (.ident ident) →
      IsPascalIdentifier alphabet ident.name)
    (generated : answer context (expr e) = .ok script) :
    (∀ others, Ecma.Tokens alphabet script.print.toList others ↔ others = script.tokens) ∧
      ∃ tree, ∀ other, Ecma.Parses .expression script.tokens other ↔ other = tree := by
  have valid := (outcome_expr context e .root).valid script generated
  have names : ∀ name, (Node.expr e).Names name → Script.IsName alphabet name := by
    rintro name ⟨ident, within, rfl⟩
    exact Script.isName_identifier (identifiers ident within)
  have scanned : Ecma.Tokens alphabet script.print.toList script.tokens := by
    simpa using valid.scans names [] [] nofun .nil
  obtain ⟨tree, parsed⟩ := valid.derives.exists_parses rfl
  refine ⟨fun others => ⟨fun other => other.unique scanned, ?_⟩,
    tree, fun other => ⟨fun other => other.unique parsed, ?_⟩⟩
  · rintro rfl
    exact scanned
  · rintro rfl
    exact parsed

/-- The tree of the text is the counterpart of the expression if the expression
respects the precedences of scripts. -/
theorem Generation.tree_eq_iff {tree : Ecma.Tree} (generated : answer context (expr e) = .ok script)
    (parsed : ∀ other, Ecma.Parses .expression script.tokens other ↔ other = tree) :
    e.tree context.reads = some tree ↔ (Node.expr e).Respects Script.Operator.precedence := by
  obtain ⟨counterpart, same, tokens⟩ := writes_expr context e script generated
  rw [← Expr.proper_tree_iff same, Ecma.Tree.Proper, tokens, parsed, same, Option.some_inj]

end Texts

/-- The text that is generated for an expression is an expression of ECMAScript with
one tree. The tree is the counterpart of the expression, node by node, if and only
if in every operation of the expression the operator of the left operand binds at
least as strongly as the operation's, and that of the right operand more strongly. -/
theorem Generation.grouping_kept_iff (alphabet : Ecma.Alphabet) {context : Context} {e : Expr}
    {script : Script.Expr}
    (identifiers : ∀ ident : Ident, (Node.expr e).Within (.ident ident) →
      IsPascalIdentifier alphabet ident.name)
    (generated : answer context (expr e) = .ok script) :
    ∃ tokens tree,
      (∀ others, Ecma.Tokens alphabet script.print.toList others ↔ others = tokens) ∧
        (∀ other, Ecma.Parses .expression tokens other ↔ other = tree) ∧
        (e.tree context.reads = some tree ↔
          (Node.expr e).Respects Script.Operator.precedence) := by
  obtain ⟨scanned, tree, parsed⟩ := exists_parse identifiers generated
  exact ⟨script.tokens, tree, scanned, parsed, tree_eq_iff generated parsed⟩

section Sample

/-- The call `Odd(1)`. -/
def oddCall : Expr :=
  .call .unknown (some ⟨.unknown, "Odd"⟩) [some (.integer .unknown 1)]

/-- The conjunction `Odd(1) and 2`. -/
def oddConjunction : Expr :=
  .binary .unknown "and" (some oddCall) (some (.integer .unknown 2))

/-- The comparison of an expression with `-3`. -/
def comparison (left : Expr) : Expr :=
  .binary .unknown "=" (some left) (some (.integer .unknown (-3)))

/-- The conjunction of `Odd(1)` with the comparison `2 = -3`. -/
def comparedConjunct : Expr :=
  .binary .unknown "and" (some oddCall) (some (comparison (.integer .unknown 2)))

/-- The nodes of the three ways to group `Odd(1)`, `2` and `-3`. -/
def groupingNodes : List Node :=
  [.expr comparedConjunct, .expr (comparison oddConjunction),
    .expr (comparison (.parens .unknown (some oddConjunction))),
    .expr (.parens .unknown (some oddConjunction)), .expr oddConjunction,
    .expr (comparison (.integer .unknown 2)), .expr oddCall, .ident ⟨.unknown, "Odd"⟩,
    .expr (.integer .unknown 1), .expr (.integer .unknown 2), .expr (.integer .unknown (-3))]

theorem isPascalIdentifier_of_within (alphabet : Ecma.Alphabet) {root : Node} {ident : Ident}
    (isRoot : root ∈ groupingNodes) (within : root.Within (.ident ident)) :
    IsPascalIdentifier alphabet ident.name := by
  have mem : Node.ident ident ∈ groupingNodes := by
    refine within.mem_of_closed isRoot ?_
    simp [groupingNodes, comparedConjunct, comparison, oddConjunction, oddCall, Node.parts,
      Expr.parts, Component.mandatory, Component.listOf, Component.nodes, List.reduceOption]
  obtain rfl : ident = ⟨.unknown, "Odd"⟩ := by simpa [groupingNodes] using mem
  refine ⟨'O', ['d', 'd'], rfl, .inl rfl, ?_⟩
  simp only [List.forall_mem_cons, List.not_mem_nil, false_implies, implies_true, and_true]
  exact ⟨.inl rfl, .inl rfl⟩

theorem ofSource?_and : Script.Operator.ofSource? "and" = some .and := by decide +kernel

theorem ofSource?_equal : Script.Operator.ofSource? "=" = some .equal := by decide +kernel

theorem respects_comparedConjunct :
    (Node.expr comparedConjunct).Respects Script.Operator.precedence := by
  simp [Node.Respects, comparedConjunct, comparison, oddCall, all_binary, all_callExpr,
    all_integer, Node.Operation, Binds, Expr.operator?, ofSource?_and, ofSource?_equal,
    Script.Operator.precedence]

theorem exists_ok_of_map {ε α β : Type} {result : Except ε α} {f : α → β} {b : β}
    (same : result.toOption.map f = some b) : ∃ a, result = .ok a ∧ f a = b := by
  cases result with
  | error _ => cases same
  | ok a => exact ⟨a, rfl, Option.some_inj.mp same⟩

theorem Generation.exists_script {e : Expr} {text : String}
    (printed : (answer {} (expr e)).toOption.map Script.Expr.print = some text) :
    ∃ script, answer {} (expr e) = .ok script ∧ script.print = text :=
  exists_ok_of_map printed

theorem Generation.exists_script_comparedConjunct :
    ∃ script, answer {} (expr comparedConjunct) = .ok script ∧ script.print = "Odd(1)&&2===-3" :=
  exists_script (by decide +kernel)

end Sample

/-- The operations of `Odd(1) and (2 = -3)`, without the parentheses, are kept. -/
theorem Generation.grouping_kept_comparedConjunct :
    ∃ script tokens tree, answer {} (expr comparedConjunct) = .ok script ∧
      script.print = "Odd(1)&&2===-3" ∧
      Ecma.Tokens ⟨fun _ => false, fun _ => false⟩ script.print.toList tokens ∧
      Ecma.Parses .expression tokens tree ∧
      comparedConjunct.tree ({} : Context).reads = some tree := by
  obtain ⟨script, generated, text⟩ := exists_script_comparedConjunct
  obtain ⟨tokens, tree, scanned, parsed, kept⟩ := grouping_kept_iff
    ⟨fun _ => false, fun _ => false⟩
    (fun _ within => isPascalIdentifier_of_within _ (by simp [groupingNodes]) within) generated
  refine ⟨script, tokens, tree, generated, text, (scanned tokens).mpr rfl, (parsed tree).mpr rfl,
    kept.mpr respects_comparedConjunct⟩

/-- Where an expression is grouped as Pascal does it, the text has the same grouping if
and only if no conjunction is an operand of another operator. -/
theorem Generation.source_grouping_kept_iff (alphabet : Ecma.Alphabet) {context : Context}
    {e : Expr} {script : Script.Expr}
    (identifiers : ∀ ident : Ident, (Node.expr e).Within (.ident ident) →
      IsPascalIdentifier alphabet ident.name)
    (respects : (Node.expr e).Respects Script.Operator.sourcePrecedence)
    (generated : answer context (expr e) = .ok script) :
    ∃ tokens tree,
      (∀ others, Ecma.Tokens alphabet script.print.toList others ↔ others = tokens) ∧
        (∀ other, Ecma.Parses .expression tokens other ↔ other = tree) ∧
        (e.tree context.reads = some tree ↔ (Node.expr e).All (Node.Operation ConjoinsOnly)) := by
  obtain ⟨scanned, tree, parsed⟩ := exists_parse identifiers generated
  refine ⟨script.tokens, tree, scanned, parsed, ?_⟩
  exact (tree_eq_iff generated parsed).trans (Node.respects_iff respects)

/-- In `(Odd(1) and 2) = -3` the parentheses keep the conjunction together. -/
theorem Generation.source_grouping_kept_parens :
    ∃ script tokens tree,
      answer {} (expr (comparison (.parens .unknown (some oddConjunction)))) = .ok script ∧
      script.print = "(Odd(1)&&2)===-3" ∧
      Ecma.Tokens ⟨fun _ => false, fun _ => false⟩ script.print.toList tokens ∧
      Ecma.Parses .expression tokens tree ∧
      (comparison (.parens .unknown (some oddConjunction))).tree ({} : Context).reads =
        some tree := by
  obtain ⟨script, generated, text⟩ : ∃ script,
      answer {} (expr (comparison (.parens .unknown (some oddConjunction)))) = .ok script ∧
        script.print = "(Odd(1)&&2)===-3" := exists_script (by decide +kernel)
  have respects : (Node.expr (comparison (.parens .unknown (some oddConjunction)))).Respects
      Script.Operator.sourcePrecedence := by
    simp [Node.Respects, comparison, oddConjunction, oddCall, all_binary,
      all_parens, all_callExpr, all_integer, Node.Operation, Binds, Expr.operator?]
  obtain ⟨tokens, tree, scanned, parsed, kept⟩ := source_grouping_kept_iff
    ⟨fun _ => false, fun _ => false⟩
    (fun _ within => isPascalIdentifier_of_within _ (by simp [groupingNodes]) within)
    respects generated
  refine ⟨script, tokens, tree, generated, text, (scanned tokens).mpr rfl, (parsed tree).mpr rfl,
    kept.mpr ?_⟩
  simp [comparison, oddConjunction, oddCall, all_binary, all_parens,
    all_callExpr, all_integer, Node.Operation, ConjoinsOnly, Expr.operator?]

/-- Pascal reads `Odd(1) and 2 = -3` as a comparison of a conjunction, and its text is
that of a conjunction of a comparison. -/
theorem Generation.source_grouping_lost_comparison :
    (Node.expr (comparison oddConjunction)).Respects Script.Operator.sourcePrecedence ∧
      ∃ script tokens tree, answer {} (expr (comparison oddConjunction)) = .ok script ∧
        script.print = "Odd(1)&&2===-3" ∧
        Ecma.Tokens ⟨fun _ => false, fun _ => false⟩ script.print.toList tokens ∧
        (∀ other, Ecma.Parses .expression tokens other ↔ other = tree) ∧
        comparedConjunct.tree ({} : Context).reads = some tree ∧
        (comparison oddConjunction).tree ({} : Context).reads ≠ some tree := by
  have respects : (Node.expr (comparison oddConjunction)).Respects
      Script.Operator.sourcePrecedence := by
    simp [Node.Respects, comparison, oddConjunction, oddCall, all_binary, all_callExpr, all_integer,
      Node.Operation, Binds, Expr.operator?, ofSource?_and, ofSource?_equal,
      Script.Operator.sourcePrecedence]
  obtain ⟨script, generated, text⟩ : ∃ script,
      answer {} (expr (comparison oddConjunction)) = .ok script ∧ script.print = "Odd(1)&&2===-3" :=
    exists_script (by decide +kernel)
  obtain ⟨other, generated', text'⟩ := exists_script_comparedConjunct
  obtain ⟨scanned, tree, parsed⟩ := exists_parse
    (fun _ within => isPascalIdentifier_of_within ⟨fun _ => false, fun _ => false⟩
      (by simp [groupingNodes]) within) generated
  obtain ⟨scanned', tree', parsed'⟩ := exists_parse
    (fun _ within => isPascalIdentifier_of_within ⟨fun _ => false, fun _ => false⟩
      (by simp [groupingNodes]) within) generated'
  -- both expressions have one text, so its only tree is that of the conjunction
  have sameTokens : other.tokens = script.tokens := by
    refine (scanned other.tokens).mp ?_
    rw [text, ← text']
    exact (scanned' other.tokens).mpr rfl
  rw [sameTokens] at parsed'
  obtain rfl : tree' = tree := (parsed tree').mp ((parsed' tree').mpr rfl)
  refine ⟨respects, script, script.tokens, tree', generated, text, (scanned _).mpr rfl, parsed,
    ?_, ?_⟩
  · rw [← sameTokens] at parsed'
    exact (tree_eq_iff generated' parsed').mpr respects_comparedConjunct
  · rw [Ne, tree_eq_iff generated parsed, Node.respects_iff respects]
    simp [comparison, oddConjunction, oddCall, all_binary, ConjoinsOnly, Expr.operator?,
      ofSource?_and, ofSource?_equal, all_callExpr, all_integer, Node.Operation]

end PascalCompiler
