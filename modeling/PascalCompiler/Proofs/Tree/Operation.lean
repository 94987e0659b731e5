import PascalCompiler.Script.Basic
import PascalCompiler.Proofs.Tree.Everywhere

/-!
# Operations in expressions

An operation is an operator with its operands. A tree of operations respects
precedences if it could have been read without parentheses from left to right:
the operator of a left operand binds at least as strongly as the operation's own,
and that of a right operand more strongly.

The precedences of Pascal and those of ECMAScript are not the same. In Pascal `and`
binds more strongly than `+`, and `+` more strongly than a comparison. In
ECMAScript `&&` binds the weakest of them.

## Main definitions

* `Node.Operation`: a node has a property if it is an operation
* `Node.Respects`: the operations in a tree respect the precedences
* `Script.Operator.precedence`, `Script.Operator.sourcePrecedence`: how strongly operators bind in
  ECMAScript and in Pascal

## Main results

* `Node.respects_iff`: which trees that respect the precedences of Pascal respect those of
  ECMAScript
-/

namespace PascalCompiler

/-! ### Operations -/

/-- The operator of an expression, if it is an operation that scripts have. -/
def Expr.operator? : Expr → Option Script.Operator
  | .binary _ op _ _ => Script.Operator.ofSource? op
  | _ => none

/-- If the node is an operation, it has the property. -/
def Node.Operation (p : String → Option Expr → Option Expr → Prop) : Node → Prop
  | .expr (.binary _ op left right) => p op left right
  | _ => True

/-! ### Precedence -/

namespace Script.Operator

/-- How strongly an operator binds in a script. -/
def precedence : Operator → Nat
  | .and => 1
  | .equal | .unequal => 2
  | .plus => 3

/-- How strongly the source operator binds that becomes the operator. -/
def sourcePrecedence : Operator → Nat
  | .equal | .unequal => 1
  | .plus => 2
  | .and => 3

end Script.Operator

/-- The operator of the left operand binds at least as strongly as the operation's,
and that of the right operand more strongly. -/
def Binds (precedence : Script.Operator → Nat) (op : String) (left right : Option Expr) : Prop :=
  ∀ operator ∈ Script.Operator.ofSource? op,
    (∀ inner ∈ left.bind Expr.operator?, precedence operator ≤ precedence inner) ∧
      ∀ inner ∈ right.bind Expr.operator?, precedence operator < precedence inner

/-- All operations in the tree respect the precedences. -/
def Node.Respects (precedence : Script.Operator → Nat) (root : Node) : Prop :=
  root.All (Node.Operation (Binds precedence))

/-- No operand of another operator than `and` is a conjunction. -/
def ConjoinsOnly (op : String) (left right : Option Expr) : Prop :=
  ∀ operator ∈ Script.Operator.ofSource? op, operator ≠ .and →
    left.bind Expr.operator? ≠ some .and ∧ right.bind Expr.operator? ≠ some .and

/-- Where the source precedences are respected, the operands that bind too weakly in
scripts are the conjunctions. -/
theorem binds_iff {op : String} {left right : Option Expr}
    (source : Binds Script.Operator.sourcePrecedence op left right) :
    Binds Script.Operator.precedence op left right ↔ ConjoinsOnly op left right := by
  constructor
  · intro binds operator isOperator other
    obtain ⟨atLeast, more⟩ := binds operator isOperator
    -- every other operator binds more strongly than `and`
    have weaker : Script.Operator.precedence .and < operator.precedence := by
      cases operator <;> simp_all [Script.Operator.precedence]
    exact ⟨fun isAnd => Nat.not_le_of_lt weaker (atLeast .and isAnd),
      fun isAnd => Nat.lt_asymm weaker (more .and isAnd)⟩
  · intro conjoins operator isOperator
    obtain ⟨atLeast, more⟩ := source operator isOperator
    have noAnd := conjoins operator isOperator
    refine ⟨fun inner isInner => ?_, fun inner isInner => ?_⟩
    · have weaker := atLeast inner isInner
      cases operator <;> cases inner <;>
        simp_all [Script.Operator.precedence, Script.Operator.sourcePrecedence]
    · have weaker := more inner isInner
      cases operator <;> cases inner <;>
        simp_all [Script.Operator.precedence, Script.Operator.sourcePrecedence]

theorem Node.operation_congr {p q q' : String → Option Expr → Option Expr → Prop} {node : Node}
    (here : node.Operation p) (same : ∀ op left right, p op left right →
      (q op left right ↔ q' op left right)) : node.Operation q ↔ node.Operation q' := by
  cases node with
  | expr e =>
    cases e with
    | binary position op left right => exact same op left right here
    | _ => rfl
  | _ => rfl

/-- A tree of Pascal operations respects the precedences of scripts if conjunctions
are operands of conjunctions only. -/
theorem Node.respects_iff {root : Node}
    (respects : root.Respects Script.Operator.sourcePrecedence) :
    root.Respects Script.Operator.precedence ↔ root.All (Node.Operation ConjoinsOnly) :=
  forall₂_congr fun node within =>
    Node.operation_congr (respects node within) fun _ _ _ => binds_iff

end PascalCompiler
