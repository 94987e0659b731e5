import PascalCompiler.Proofs.Ecma.Lexis

/-!
# The grammar of ECMAScript 5 programs

Which lists of tokens are expressions, statements and programs. The categories
are nonterminals of ECMAScript 5 and every rule follows from its productions,
with those between neighbouring levels of precedence taken together and lists
written as repetitions. Rules for what no script has, such as loops and object
literals, are left out, so whatever is derived here is derived by the full
grammar as well.

Semicolons are always written and never inserted.

## Main definitions

* `Ecma.Category`: the nonterminals
* `Ecma.Derives`: the tokens that can be derived from a nonterminal
* `Ecma.Chain`: operands with binary operators between them

## Main results

* `Ecma.Chain.derives`: operands and operators are an expression in whatever order the
  operators come
-/

namespace PascalCompiler.Ecma

/-- What a list of tokens may be. -/
inductive Category where
  | primary
  | leftHandSide
  | unary
  | additive
  | equality
  | logicalAnd
  | assignment
  | expression
  | variableDeclaration
  | block
  | statement
  | functionDeclaration
  | sourceElement
  | program

/-- The tokens of the items, with commas between them. -/
def separated (items : List (List Token)) : List Token :=
  List.intercalate [.punctuator ","] items

/-- The tokens are derived from a nonterminal. -/
inductive Derives : Category → List Token → Prop where
  -- Operands
  | identifier (name : String) : Derives .primary [.identifier name]
  | number (numeral : String) : Derives .primary [.number numeral]
  | text (literal : String) : Derives .primary [.text literal]
  | array {items : List (List Token)} (each : ∀ item ∈ items, Derives .assignment item) :
      Derives .primary (.punctuator "[" :: (separated items ++ [.punctuator "]"]))
  | group {inner : List Token} (expression : Derives .expression inner) :
      Derives .primary (.punctuator "(" :: (inner ++ [.punctuator ")"]))
  | member {tokens : List Token} (primary : Derives .primary tokens) :
      Derives .leftHandSide tokens
  | call {callee : List Token} {args : List (List Token)} (primary : Derives .primary callee)
      (each : ∀ arg ∈ args, Derives .assignment arg) :
      Derives .leftHandSide
        (callee ++ .punctuator "(" :: (separated args ++ [.punctuator ")"]))
  -- Operators, from those that bind the strongest to those that bind the weakest
  | operand {tokens : List Token} (leftHandSide : Derives .leftHandSide tokens) :
      Derives .unary tokens
  | negation {tokens : List Token} (unary : Derives .unary tokens) :
      Derives .unary (.punctuator "-" :: tokens)
  | term {tokens : List Token} (unary : Derives .unary tokens) : Derives .additive tokens
  | sum {left right : List Token} (additive : Derives .additive left)
      (unary : Derives .unary right) : Derives .additive (left ++ .punctuator "+" :: right)
  | compared {tokens : List Token} (additive : Derives .additive tokens) :
      Derives .equality tokens
  | equal {left right : List Token} (equality : Derives .equality left)
      (additive : Derives .additive right) :
      Derives .equality (left ++ .punctuator "===" :: right)
  | unequal {left right : List Token} (equality : Derives .equality left)
      (additive : Derives .additive right) :
      Derives .equality (left ++ .punctuator "!==" :: right)
  | condition {tokens : List Token} (equality : Derives .equality tokens) :
      Derives .logicalAnd tokens
  | conjunction {left right : List Token} (logicalAnd : Derives .logicalAnd left)
      (equality : Derives .equality right) :
      Derives .logicalAnd (left ++ .punctuator "&&" :: right)
  | assigned {tokens : List Token} (logicalAnd : Derives .logicalAnd tokens) :
      Derives .assignment tokens
  | assign {target value : List Token} (leftHandSide : Derives .leftHandSide target)
      (assignment : Derives .assignment value) :
      Derives .assignment (target ++ .punctuator "=" :: value)
  | expression {tokens : List Token} (assignment : Derives .assignment tokens) :
      Derives .expression tokens
  -- Statements
  | declared (name : String) : Derives .variableDeclaration [.identifier name]
  | initialised {name : String} {value : List Token} (assignment : Derives .assignment value) :
      Derives .variableDeclaration (.identifier name :: .punctuator "=" :: value)
  | variables {items : List (List Token)} (nonempty : items ≠ [])
      (each : ∀ item ∈ items, Derives .variableDeclaration item) :
      Derives .statement (.keyword "var" :: (separated items ++ [.punctuator ";"]))
  | empty : Derives .statement [.punctuator ";"]
  | evaluation {tokens : List Token} (expression : Derives .expression tokens)
      (noBlock : tokens.head? ≠ some (.punctuator "\x7b"))
      (noFunction : tokens.head? ≠ some (.keyword "function")) :
      Derives .statement (tokens ++ [.punctuator ";"])
  | block {items : List (List Token)} (each : ∀ item ∈ items, Derives .statement item) :
      Derives .block (.punctuator "\x7b" :: (items.flatten ++ [.punctuator "\x7d"]))
  | nested {tokens : List Token} (block : Derives .block tokens) : Derives .statement tokens
  | ifThen {condition onTrue : List Token} (expression : Derives .expression condition)
      (statement : Derives .statement onTrue) :
      Derives .statement
        (.keyword "if" :: .punctuator "(" :: (condition ++ .punctuator ")" :: onTrue))
  | ifElse {condition onTrue onFalse : List Token} (expression : Derives .expression condition)
      (statement : Derives .statement onTrue) (otherwise : Derives .statement onFalse) :
      Derives .statement (.keyword "if" :: .punctuator "(" ::
        (condition ++ .punctuator ")" :: (onTrue ++ .keyword "else" :: onFalse)))
  | tryCatch {body handler : List Token} {parameter : String} (block : Derives .block body)
      (catches : Derives .block handler) :
      Derives .statement (.keyword "try" :: (body ++ .keyword "catch" :: .punctuator "(" ::
        .identifier parameter :: .punctuator ")" :: handler))
  | tryFinally {body cleanup : List Token} (block : Derives .block body)
      (finishes : Derives .block cleanup) :
      Derives .statement (.keyword "try" :: (body ++ .keyword "finally" :: cleanup))
  -- Functions and programs
  | function (name : String) (params : List String) {body : List (List Token)}
      (each : ∀ item ∈ body, Derives .sourceElement item) :
      Derives .functionDeclaration (.keyword "function" :: .identifier name :: .punctuator "(" ::
        (separated (params.map fun param => [.identifier param]) ++ .punctuator ")" ::
          .punctuator "\x7b" :: (body.flatten ++ [.punctuator "\x7d"])))
  | statement {tokens : List Token} (statement : Derives .statement tokens) :
      Derives .sourceElement tokens
  | declaration {tokens : List Token} (functionDeclaration : Derives .functionDeclaration tokens) :
      Derives .sourceElement tokens
  | program {items : List (List Token)} (each : ∀ item ∈ items, Derives .sourceElement item) :
      Derives .program items.flatten

/-! ### Operands and operators -/

/-- The binary operators that scripts have. -/
def operators : List String :=
  ["+", "===", "!==", "&&"]

/-- Operands with binary operators between them, not grouped in any way. -/
inductive Chain : List Token → Prop where
  | one {operand : List Token} (unary : Derives .unary operand) : Chain operand
  | more {chain operand : List Token} {operator : String} (isChain : Chain chain)
      (isOperator : operator ∈ operators) (unary : Derives .unary operand) :
      Chain (chain ++ .punctuator operator :: operand)

variable {left right : List Token} {operator : String}

/-- Two chains with an operator between them are one. -/
theorem Chain.join (first : Chain left) (isOperator : operator ∈ operators)
    (second : Chain right) : Chain (left ++ .punctuator operator :: right) := by
  induction second with
  | one unary => exact .more first isOperator unary
  | more _ isOperator' unary ih =>
    rw [← List.cons_append, ← List.append_assoc]
    exact .more ih isOperator' unary

theorem Derives.equality_plus (equality : Derives .equality left) (unary : Derives .unary right) :
    Derives .equality (left ++ .punctuator "+" :: right) := by
  cases equality with
  | compared additive => exact .compared (.sum additive unary)
  | equal equality additive =>
    rw [List.append_assoc]
    exact .equal equality (.sum additive unary)
  | unequal equality additive =>
    rw [List.append_assoc]
    exact .unequal equality (.sum additive unary)

/-- An operand joins the last operands of a condition, and only those that its
operator binds more strongly than the others do. -/
theorem Derives.logicalAnd_more (logicalAnd : Derives .logicalAnd left)
    (isOperator : operator ∈ operators) (unary : Derives .unary right) :
    Derives .logicalAnd (left ++ .punctuator operator :: right) := by
  have last {last : List Token} (equality : Derives .equality last) (notAnd : operator ≠ "&&") :
      Derives .equality (last ++ .punctuator operator :: right) := by
    simp only [operators, List.mem_cons, List.not_mem_nil, or_false] at isOperator
    rcases isOperator with rfl | rfl | rfl | rfl
    · exact equality.equality_plus unary
    · exact .equal equality (.term unary)
    · exact .unequal equality (.term unary)
    · exact absurd rfl notAnd
  by_cases isAnd : operator = "&&"
  · subst isAnd
    exact .conjunction logicalAnd (.compared (.term unary))
  · cases logicalAnd with
    | condition equality => exact .condition (last equality isAnd)
    | conjunction before equality =>
      rw [List.append_assoc]
      exact .conjunction before (last equality isAnd)

/-- Operands and operators are an expression. -/
theorem Chain.derives (chain : Chain left) : Derives .assignment left := by
  have condition : Derives .logicalAnd left := by
    induction chain with
    | one unary => exact .condition (.compared (.term unary))
    | more _ isOperator unary ih => exact ih.logicalAnd_more isOperator unary
  exact .assigned condition

end PascalCompiler.Ecma
