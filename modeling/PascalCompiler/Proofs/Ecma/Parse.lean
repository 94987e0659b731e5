import PascalCompiler.Proofs.Ecma.Grammar

/-!
# The trees of expressions

A derivation of an expression groups its operands: those of an operator are what
its production puts on either side of it. The tree of the expression records this
grouping and forgets the productions that only pass from one nonterminal to the
next.

Not every tree is that of its tokens: what an operator has on either side must
bind strongly enough to be read before it, or be in parentheses.

## Main definitions

* `Ecma.Tree`: the trees
* `Ecma.Parses`: the tokens of a nonterminal that have a tree
* `Ecma.Tree.strength`: how strongly the operator of a tree binds
* `Ecma.Tree.Proper`: the trees that are those of their tokens

## Main results

* `Ecma.Derives.exists_parses`: what is derived as an expression has a tree
* `Ecma.proper_binary_iff`: when the tree of an operator and its operands is proper
-/

namespace PascalCompiler.Ecma

/-- The tree of an expression. -/
inductive Tree where
  | identifier (name : String)
  | number (numeral : String)
  | text (literal : String)
  | array (elements : List Tree)
  /-- An expression in parentheses. -/
  | group (inner : Tree)
  | call (callee : Tree) (args : List Tree)
  | negation (operand : Tree)
  | binary (sign : String) (left right : Tree)
  | assign (target value : Tree)

namespace Category

/-- The binary operators in the productions of a nonterminal. -/
def operators : Category → List String
  | .additive => ["+"]
  | .equality => ["===", "!=="]
  | .logicalAnd => ["&&"]
  | _ => []

/-- The nonterminal on the right of a nonterminal's operators. -/
def operand : Category → Category
  | .additive => .unary
  | .equality => .additive
  | .logicalAnd => .equality
  | level => level

/-- Is the nonterminal one of expressions? -/
def isExpression : Category → Bool
  | .primary | .leftHandSide | .unary | .additive | .equality | .logicalAnd | .assignment
  | .expression => true
  | _ => false

end Category

/-- The operators and their nonterminals. -/
theorem eq_of_mem_operators {level : Category} {sign : String}
    (isOperator : sign ∈ level.operators) :
    level = .additive ∧ sign = "+" ∨ level = .equality ∧ sign = "===" ∨
      level = .equality ∧ sign = "!==" ∨ level = .logicalAnd ∧ sign = "&&" := by
  cases level with
  | additive | equality | logicalAnd => simpa [Category.operators] using isOperator
  | _ => cases isOperator

/-- The tokens are derived from a nonterminal, with the tree of the derivation. -/
inductive Parses : Category → List Token → Tree → Prop where
  | identifier (name : String) : Parses .primary [.identifier name] (.identifier name)
  | number (numeral : String) : Parses .primary [.number numeral] (.number numeral)
  | text (literal : String) : Parses .primary [.text literal] (.text literal)
  | array {items : List (List Token × Tree)}
      (each : ∀ item ∈ items, Parses .assignment item.1 item.2) :
      Parses .primary (.punctuator "[" :: (separated (items.map Prod.fst) ++ [.punctuator "]"]))
        (.array (items.map Prod.snd))
  | group {tokens : List Token} {inner : Tree} (expression : Parses .expression tokens inner) :
      Parses .primary (.punctuator "(" :: (tokens ++ [.punctuator ")"])) (.group inner)
  | member {tokens : List Token} {tree : Tree} (primary : Parses .primary tokens tree) :
      Parses .leftHandSide tokens tree
  | call {tokens : List Token} {callee : Tree} {args : List (List Token × Tree)}
      (primary : Parses .primary tokens callee)
      (each : ∀ arg ∈ args, Parses .assignment arg.1 arg.2) :
      Parses .leftHandSide
        (tokens ++ .punctuator "(" :: (separated (args.map Prod.fst) ++ [.punctuator ")"]))
        (.call callee (args.map Prod.snd))
  | operand {tokens : List Token} {tree : Tree} (leftHandSide : Parses .leftHandSide tokens tree) :
      Parses .unary tokens tree
  | negation {tokens : List Token} {tree : Tree} (unary : Parses .unary tokens tree) :
      Parses .unary (.punctuator "-" :: tokens) (.negation tree)
  | term {tokens : List Token} {tree : Tree} (unary : Parses .unary tokens tree) :
      Parses .additive tokens tree
  | sum {left right : List Token} {first second : Tree} (additive : Parses .additive left first)
      (unary : Parses .unary right second) :
      Parses .additive (left ++ .punctuator "+" :: right) (.binary "+" first second)
  | compared {tokens : List Token} {tree : Tree} (additive : Parses .additive tokens tree) :
      Parses .equality tokens tree
  | equal {left right : List Token} {first second : Tree} (equality : Parses .equality left first)
      (additive : Parses .additive right second) :
      Parses .equality (left ++ .punctuator "===" :: right) (.binary "===" first second)
  | unequal {left right : List Token} {first second : Tree}
      (equality : Parses .equality left first) (additive : Parses .additive right second) :
      Parses .equality (left ++ .punctuator "!==" :: right) (.binary "!==" first second)
  | condition {tokens : List Token} {tree : Tree} (equality : Parses .equality tokens tree) :
      Parses .logicalAnd tokens tree
  | conjunction {left right : List Token} {first second : Tree}
      (logicalAnd : Parses .logicalAnd left first) (equality : Parses .equality right second) :
      Parses .logicalAnd (left ++ .punctuator "&&" :: right) (.binary "&&" first second)
  | assigned {tokens : List Token} {tree : Tree} (logicalAnd : Parses .logicalAnd tokens tree) :
      Parses .assignment tokens tree
  | assign {tokens tokens' : List Token} {target value : Tree}
      (leftHandSide : Parses .leftHandSide tokens target)
      (assignment : Parses .assignment tokens' value) :
      Parses .assignment (tokens ++ .punctuator "=" :: tokens') (.assign target value)
  | expression {tokens : List Token} {tree : Tree} (assignment : Parses .assignment tokens tree) :
      Parses .expression tokens tree

/-! ### Trees and derivations -/

section Derivations

variable {level : Category} {tokens left right : List Token} {tree : Tree} {sign : String}

/-- Items that have trees are listed with them. -/
theorem exists_items {items : List (List Token)}
    (each : ∀ item ∈ items, ∃ tree, Parses level item tree) :
    ∃ pairs : List (List Token × Tree), pairs.map Prod.fst = items ∧
      ∀ pair ∈ pairs, Parses level pair.1 pair.2 := by
  induction items with
  | nil => exact ⟨[], rfl, nofun⟩
  | cons item items ih =>
    obtain ⟨⟨tree, here⟩, others⟩ := List.forall_mem_cons.mp each
    obtain ⟨pairs, rfl, behind⟩ := ih others
    exact ⟨(item, tree) :: pairs, rfl, List.forall_mem_cons.mpr ⟨here, behind⟩⟩

/-- What is derived as an expression has a tree. -/
theorem Derives.exists_parses (derived : Derives level tokens) (isExpression : level.isExpression) :
    ∃ tree, Parses level tokens tree := by
  induction derived with
  | identifier name => exact ⟨_, .identifier name⟩
  | number numeral => exact ⟨_, .number numeral⟩
  | text literal => exact ⟨_, .text literal⟩
  | array _ ih =>
    obtain ⟨pairs, rfl, each⟩ := exists_items fun item mem => ih item mem rfl
    exact ⟨_, .array each⟩
  | group _ ih =>
    obtain ⟨tree, parsed⟩ := ih rfl
    exact ⟨_, .group parsed⟩
  | member _ ih =>
    obtain ⟨tree, parsed⟩ := ih rfl
    exact ⟨tree, .member parsed⟩
  | call _ _ ih ihArgs =>
    obtain ⟨callee, parsed⟩ := ih rfl
    obtain ⟨pairs, rfl, each⟩ := exists_items fun arg mem => ihArgs arg mem rfl
    exact ⟨_, .call parsed each⟩
  | operand _ ih =>
    obtain ⟨tree, parsed⟩ := ih rfl
    exact ⟨tree, .operand parsed⟩
  | negation _ ih =>
    obtain ⟨tree, parsed⟩ := ih rfl
    exact ⟨_, .negation parsed⟩
  | term _ ih =>
    obtain ⟨tree, parsed⟩ := ih rfl
    exact ⟨tree, .term parsed⟩
  | sum _ _ ih ihOperand =>
    obtain ⟨first, parsed⟩ := ih rfl
    obtain ⟨second, operand⟩ := ihOperand rfl
    exact ⟨_, .sum parsed operand⟩
  | compared _ ih =>
    obtain ⟨tree, parsed⟩ := ih rfl
    exact ⟨tree, .compared parsed⟩
  | equal _ _ ih ihOperand =>
    obtain ⟨first, parsed⟩ := ih rfl
    obtain ⟨second, operand⟩ := ihOperand rfl
    exact ⟨_, .equal parsed operand⟩
  | unequal _ _ ih ihOperand =>
    obtain ⟨first, parsed⟩ := ih rfl
    obtain ⟨second, operand⟩ := ihOperand rfl
    exact ⟨_, .unequal parsed operand⟩
  | condition _ ih =>
    obtain ⟨tree, parsed⟩ := ih rfl
    exact ⟨tree, .condition parsed⟩
  | conjunction _ _ ih ihOperand =>
    obtain ⟨first, parsed⟩ := ih rfl
    obtain ⟨second, operand⟩ := ihOperand rfl
    exact ⟨_, .conjunction parsed operand⟩
  | assigned _ ih =>
    obtain ⟨tree, parsed⟩ := ih rfl
    exact ⟨tree, .assigned parsed⟩
  | assign _ _ ih ihValue =>
    obtain ⟨target, parsed⟩ := ih rfl
    obtain ⟨value, parsedValue⟩ := ihValue rfl
    exact ⟨_, .assign parsed parsedValue⟩
  | expression _ ih =>
    obtain ⟨tree, parsed⟩ := ih rfl
    exact ⟨tree, .expression parsed⟩
  | _ => cases isExpression

end Derivations

/-! ### The tokens of a tree -/

namespace Tree

mutual

/-- The tokens of a tree. -/
def tokens : Tree → List Token
  | .identifier name => [.identifier name]
  | .number numeral => [.number numeral]
  | .text literal => [.text literal]
  | .array elements => .punctuator "[" :: (separated (tokensAll elements) ++ [.punctuator "]"])
  | .group inner => .punctuator "(" :: (tokens inner ++ [.punctuator ")"])
  | .call callee args =>
    tokens callee ++ .punctuator "(" :: (separated (tokensAll args) ++ [.punctuator ")"])
  | .negation operand => .punctuator "-" :: tokens operand
  | .binary sign left right => tokens left ++ .punctuator sign :: tokens right
  | .assign target value => tokens target ++ .punctuator "=" :: tokens value

/-- The tokens of a list of trees, by tree. -/
def tokensAll : List Tree → List (List Token)
  | [] => []
  | tree :: rest => tokens tree :: tokensAll rest

end

theorem tokensAll_eq (list : List Tree) : tokensAll list = list.map tokens := by
  induction list with
  | nil => rfl
  | cons tree rest ih => rw [tokensAll, ih, List.map_cons]

end Tree

theorem map_fst_eq {items : List (List Token × Tree)}
    (each : ∀ item ∈ items, item.1 = item.2.tokens) :
    items.map Prod.fst = Tree.tokensAll (items.map Prod.snd) := by
  rw [Tree.tokensAll_eq, List.map_map]
  exact List.map_congr_left each

/-- A tree is that of its own tokens only. -/
theorem Parses.tokens_eq {level : Category} {tokens : List Token} {tree : Tree}
    (parsed : Parses level tokens tree) : tokens = tree.tokens := by
  induction parsed with
  | identifier | number | text => rfl
  | array _ ih => rw [Tree.tokens, map_fst_eq ih]
  | group _ ih => rw [Tree.tokens, ih]
  | call _ _ ih ihArgs => rw [Tree.tokens, map_fst_eq ihArgs, ih]
  | negation _ ih => rw [Tree.tokens, ih]
  | sum _ _ ih ihOperand | equal _ _ ih ihOperand | unequal _ _ ih ihOperand
  | conjunction _ _ ih ihOperand => rw [Tree.tokens, ih, ihOperand]
  | assign _ _ ih ihValue => rw [Tree.tokens, ih, ihValue]
  | member _ ih | operand _ ih | term _ ih | compared _ ih | condition _ ih | assigned _ ih
  | expression _ ih => exact ih

/-! ### Precedence -/

/-- How strongly a binary operator binds. -/
def strength : String → Nat
  | "+" => 3
  | "===" | "!==" => 2
  | "&&" => 1
  | _ => 0

/-- How strongly the operators of a nonterminal bind. What has no binary operators
outside of brackets is bound the strongest. -/
def Category.strength : Category → Nat
  | .primary | .leftHandSide | .unary => 4
  | .additive => 3
  | .equality => 2
  | .logicalAnd => 1
  | _ => 0

/-- How strongly the operator of a tree binds. -/
def Tree.strength : Tree → Nat
  | .binary sign _ _ => Ecma.strength sign
  | .assign _ _ => 0
  | _ => 4

/-- The tree is that of its tokens. -/
def Tree.Proper (tree : Tree) : Prop :=
  Parses .expression tree.tokens tree

section Precedence

variable {level : Category} {tokens : List Token} {tree left right : Tree} {sign : String}

theorem strength_eq (isOperator : sign ∈ level.operators) : strength sign = level.strength := by
  rcases eq_of_mem_operators isOperator with
    ⟨rfl, rfl⟩ | ⟨rfl, rfl⟩ | ⟨rfl, rfl⟩ | ⟨rfl, rfl⟩ <;> rfl

theorem Parses.strength_le (parsed : Parses level tokens tree) :
    level.strength ≤ tree.strength := by
  induction parsed with
  | identifier | number | text | array | group | call | negation => exact Nat.le_refl _
  | sum | equal | unequal | conjunction => exact Nat.le_refl _
  | member _ ih | operand _ ih => exact ih
  | term _ ih | compared _ ih | condition _ ih => exact Nat.le_of_succ_le ih
  | assigned | assign | expression => exact Nat.zero_le _

/-- The nonterminals between which parentheses make a difference. -/
def levels : List Category :=
  [.unary, .additive, .equality, .logicalAnd]

theorem Parses.expression_of_level (parsed : Parses level tokens tree) (isLevel : level ∈ levels) :
    Parses .expression tokens tree := by
  simp only [levels, List.mem_cons, List.not_mem_nil, or_false] at isLevel
  rcases isLevel with rfl | rfl | rfl | rfl
  · exact .expression (.assigned (.condition (.compared (.term parsed))))
  · exact .expression (.assigned (.condition (.compared parsed)))
  · exact .expression (.assigned (.condition parsed))
  · exact .expression (.assigned parsed)

/-- What is read as an expression is read from the nonterminal of its operator
already. -/
theorem parses_iff (isLevel : level ∈ levels) :
    Parses level tokens tree ↔ Parses .expression tokens tree ∧ level.strength ≤ tree.strength := by
  refine ⟨fun parsed => ⟨parsed.expression_of_level isLevel, parsed.strength_le⟩, ?_⟩
  rintro ⟨parsed, strong⟩
  -- each step down leaves out an operator that binds too weakly
  have logicalAnd (strong : 1 ≤ tree.strength) : Parses .logicalAnd tokens tree := by
    cases parsed with
    | expression parsed =>
      cases parsed with
      | assigned parsed => exact parsed
      | assign => exact absurd strong (by simp [Tree.strength])
  have equality (strong : 2 ≤ tree.strength) : Parses .equality tokens tree := by
    cases logicalAnd (Nat.le_of_succ_le strong) with
    | condition parsed => exact parsed
    | conjunction => exact absurd strong (by simp [Tree.strength, strength])
  have additive (strong : 3 ≤ tree.strength) : Parses .additive tokens tree := by
    cases equality (Nat.le_of_succ_le strong) with
    | compared parsed => exact parsed
    | equal => exact absurd strong (by simp [Tree.strength, strength])
    | unequal => exact absurd strong (by simp [Tree.strength, strength])
  have unary (strong : 4 ≤ tree.strength) : Parses .unary tokens tree := by
    cases additive (Nat.le_of_succ_le strong) with
    | term parsed => exact parsed
    | sum => exact absurd strong (by simp [Tree.strength, strength])
  simp only [levels, List.mem_cons, List.not_mem_nil, or_false] at isLevel
  rcases isLevel with rfl | rfl | rfl | rfl
  · exact unary strong
  · exact additive strong
  · exact equality strong
  · exact logicalAnd strong

theorem mem_levels_of_operator (isOperator : sign ∈ level.operators) :
    level ∈ levels ∧ level.operand ∈ levels ∧ level.operand.strength = level.strength + 1 := by
  cases level with
  | additive | equality | logicalAnd => simp [levels, Category.operand, Category.strength]
  | _ => cases isOperator

theorem Parses.joined {before behind : List Token} (isOperator : sign ∈ level.operators)
    (first : Parses level before left) (second : Parses level.operand behind right) :
    Parses level (before ++ .punctuator sign :: behind) (.binary sign left right) := by
  rcases eq_of_mem_operators isOperator with
    ⟨rfl, rfl⟩ | ⟨rfl, rfl⟩ | ⟨rfl, rfl⟩ | ⟨rfl, rfl⟩
  · exact .sum first second
  · exact .equal first second
  · exact .unequal first second
  · exact .conjunction first second

/-- An operator stands between what its nonterminal has on either side. -/
theorem Parses.of_binary (parsed : Parses level tokens (.binary sign left right)) :
    ∃ level', sign ∈ level'.operators ∧ Parses level' left.tokens left ∧
      Parses level'.operand right.tokens right := by
  generalize same : Tree.binary sign left right = tree at parsed
  induction parsed with
  | sum first second | equal first second | unequal first second | conjunction first second =>
    cases same
    rw [← first.tokens_eq, ← second.tokens_eq]
    exact ⟨_, by decide, first, second⟩
  | member _ ih | operand _ ih | term _ ih | compared _ ih | condition _ ih | assigned _ ih
  | expression _ ih => exact ih same
  | _ => cases same

/-- An operator and its operands are grouped as in the tree if the operands are,
the operator of the left one binds at least as strongly, and that of the right one
more strongly. -/
theorem proper_binary_iff (isOperator : sign ∈ operators) :
    (Tree.binary sign left right).Proper ↔ left.Proper ∧ right.Proper ∧
      strength sign ≤ left.strength ∧ strength sign < right.strength := by
  constructor
  · intro proper
    obtain ⟨level, isOperator, first, second⟩ := proper.of_binary
    obtain ⟨isLevel, isLevel', next⟩ := mem_levels_of_operator isOperator
    obtain ⟨properLeft, atLeast⟩ := (parses_iff isLevel).mp first
    obtain ⟨properRight, more⟩ := (parses_iff isLevel').mp second
    rw [strength_eq isOperator]
    exact ⟨properLeft, properRight, atLeast, Nat.lt_of_lt_of_le (by omega) more⟩
  · rintro ⟨properLeft, properRight, atLeast, more⟩
    obtain ⟨level, isOperator⟩ : ∃ level : Category, sign ∈ level.operators := by
      simp only [operators, List.mem_cons, List.not_mem_nil, or_false] at isOperator
      rcases isOperator with rfl | rfl | rfl | rfl
      · exact ⟨.additive, by decide⟩
      · exact ⟨.equality, by decide⟩
      · exact ⟨.equality, by decide⟩
      · exact ⟨.logicalAnd, by decide⟩
    obtain ⟨isLevel, isLevel', next⟩ := mem_levels_of_operator isOperator
    rw [strength_eq isOperator] at atLeast more
    have first := (parses_iff isLevel).mpr ⟨properLeft, atLeast⟩
    have second := (parses_iff isLevel').mpr ⟨properRight, by omega⟩
    exact (Parses.joined isOperator first second).expression_of_level isLevel

/-- What no binary operator is in is read before all operators. -/
theorem Tree.Proper.unary (proper : tree.Proper) (strong : tree.strength = 4) :
    Parses .unary tree.tokens tree :=
  (parses_iff List.mem_cons_self).mpr ⟨proper, Nat.le_of_eq strong.symm⟩

theorem Parses.proper (parsed : Parses .unary tokens tree) : tree.Proper := by
  have whole := parsed.expression_of_level List.mem_cons_self
  rwa [whole.tokens_eq] at whole

theorem Parses.proper_of_assignment (parsed : Parses .assignment tokens tree) : tree.Proper := by
  have whole := Parses.expression parsed
  rwa [whole.tokens_eq] at whole

theorem Tree.Proper.assignment (proper : tree.Proper) : Parses .assignment tree.tokens tree := by
  cases proper with
  | expression parsed => exact parsed

theorem Parses.of_group (parsed : Parses .unary tokens (.group tree)) : tree.Proper := by
  cases parsed with
  | operand parsed =>
    cases parsed with
    | member parsed =>
      cases parsed with
      | group parsed => rwa [parsed.tokens_eq] at parsed

theorem Parses.of_array {elements : List Tree} (parsed : Parses .unary tokens (.array elements)) :
    ∀ element ∈ elements, element.Proper := by
  cases parsed with
  | operand parsed =>
    cases parsed with
    | member parsed =>
      cases parsed with
      | array each =>
        exact List.forall_mem_map.mpr fun item mem => (each item mem).proper_of_assignment

theorem Parses.of_call {callee : Tree} {args : List Tree}
    (parsed : Parses .unary tokens (.call callee args)) : ∀ arg ∈ args, arg.Proper := by
  cases parsed with
  | operand parsed =>
    cases parsed with
    | member parsed => cases parsed
    | call _ each =>
      exact List.forall_mem_map.mpr fun arg mem => (each arg mem).proper_of_assignment

/-- Proper trees are listed with their tokens. -/
theorem exists_items_of_proper {list : List Tree} (each : ∀ tree ∈ list, tree.Proper) :
    ∃ items : List (List Token × Tree), items.map Prod.snd = list ∧
      ∀ item ∈ items, Parses .assignment item.1 item.2 := by
  refine ⟨list.map fun tree => (tree.tokens, tree), ?_, ?_⟩
  · rw [List.map_map]
    exact List.map_id list
  · exact List.forall_mem_map.mpr fun tree mem => (each tree mem).assignment

theorem proper_group_iff : (Tree.group tree).Proper ↔ tree.Proper :=
  ⟨fun proper => (proper.unary rfl).of_group,
    fun proper => (Parses.operand (.member (.group proper))).proper⟩

theorem proper_array_iff {elements : List Tree} :
    (Tree.array elements).Proper ↔ ∀ element ∈ elements, element.Proper := by
  refine ⟨fun proper => (proper.unary rfl).of_array, fun each => ?_⟩
  obtain ⟨items, rfl, parsed⟩ := exists_items_of_proper each
  exact (Parses.operand (.member (.array parsed))).proper

theorem proper_call_iff {name : String} {args : List Tree} :
    (Tree.call (.identifier name) args).Proper ↔ ∀ arg ∈ args, arg.Proper := by
  refine ⟨fun proper => (proper.unary rfl).of_call, fun each => ?_⟩
  obtain ⟨items, rfl, parsed⟩ := exists_items_of_proper each
  exact (Parses.operand (.call (.identifier name) parsed)).proper

end Precedence

end PascalCompiler.Ecma
