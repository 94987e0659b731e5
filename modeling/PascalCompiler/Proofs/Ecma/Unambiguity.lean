import PascalCompiler.Proofs.Ecma.Parse

/-!
# Expressions have one tree

The grammar of expressions is not ambiguous. Operators that join expressions of
the same nonterminal are taken together from left to right, so that everything
that can be read from the same tokens, as far as it goes, is an operand with
operators behind it. Two readings then differ in nothing but in how far they go,
and that is settled by the sign that follows.

## Main definitions

* `Ecma.Extends`: a tree, and what becomes of it when more operators are read
* `Ecma.Stops`: no sign follows that would continue what is read
* `Ecma.Determined`: all readings extend the tree

## Main results

* `Ecma.Parses.determined`: every tree is determined by its tokens
* `Ecma.Parses.unique`: no list of tokens has two trees
-/

namespace PascalCompiler.Ecma

/-! ### Reading from left to right -/

/-- Operators of a nonterminal with their operands, read behind a tree, give
another tree. -/
inductive Extends (level : Category) : Tree → List Token → Tree → Prop where
  | done (tree : Tree) : Extends level tree [] tree
  | more {tree second result : Tree} {sign : String} {right rest : List Token}
      (isOperator : sign ∈ level.operators) (operand : Parses level.operand right second)
      (extended : Extends level (.binary sign tree second) rest result) :
      Extends level tree (.punctuator sign :: (right ++ rest)) result

section Extending

variable {level : Category} {tokens right : List Token} {tree first second result : Tree}
  {sign : String}

theorem Extends.snoc (extended : Extends level tree tokens result)
    (isOperator : sign ∈ level.operators) (operand : Parses level.operand right second) :
    Extends level tree (tokens ++ .punctuator sign :: right) (.binary sign result second) := by
  induction extended with
  | done tree =>
    have one := Extends.more isOperator operand (.done (.binary sign tree second))
    rwa [List.append_nil] at one
  | more isOperator' operand' _ ih =>
    rw [List.cons_append, List.append_assoc]
    exact .more isOperator' operand' ih

/-- What is read from a nonterminal with operators is an operand that is extended. -/
theorem Parses.exists_extends (parsed : Parses level tokens tree)
    (isLevel : level.operators ≠ []) :
    ∃ start first more, Parses level.operand start first ∧ Extends level first more tree ∧
      tokens = start ++ more := by
  induction parsed with
  | term operand | compared operand | condition operand =>
    exact ⟨_, _, [], operand, .done _, (List.append_nil _).symm⟩
  | sum _ operand ih | equal _ operand ih | unequal _ operand ih | conjunction _ operand ih =>
    obtain ⟨start, first, more, parsed, extended, rfl⟩ := ih isLevel
    exact ⟨start, first, _, parsed, extended.snoc (by decide) operand, List.append_assoc ..⟩
  | _ => exact absurd rfl isLevel

end Extending

/-- The signs that can continue what is read from a nonterminal. -/
def Category.continuing : Category → List String
  | .leftHandSide | .unary => ["("]
  | .additive => ["(", "+"]
  | .equality => ["(", "+", "===", "!=="]
  | .logicalAnd => ["(", "+", "===", "!==", "&&"]
  | .assignment | .expression => ["(", "+", "===", "!==", "&&", "="]
  | _ => []

/-- The tokens do not begin with a sign that continues what is read from the
nonterminal. -/
def Stops (level : Category) (rest : List Token) : Prop :=
  ∀ sign ∈ level.continuing, rest.head? ≠ some (.punctuator sign)

/-- Whatever else of the nonterminal can be read, with enough tokens behind it, is
the given tree extended. -/
def Determined (level : Category) (tokens : List Token) (tree : Tree) : Prop :=
  ∀ rest tokens' tree' rest', Parses level tokens' tree' → tokens ++ rest = tokens' ++ rest' →
    Stops level.operand rest → Stops level rest' →
    ∃ more, Extends level tree more tree' ∧ rest = more ++ rest'

section Determination

variable {level : Category} {tokens tokens' rest rest' : List Token} {tree tree' : Tree}
  {sign : String}

theorem stops_nil (level : Category) : Stops level [] :=
  fun _ _ => nofun

theorem Stops.of_subset {level' : Category} (stops : Stops level rest)
    (fewer : level'.continuing ⊆ level.continuing) : Stops level' rest :=
  fun sign mem => stops sign (fewer mem)

theorem Stops.ne (stops : Stops level (.punctuator sign :: rest)) : sign ∉ level.continuing :=
  fun mem => stops sign mem rfl

theorem stops_cons (other : sign ∉ level.continuing) (rest : List Token) :
    Stops level (.punctuator sign :: rest) := by
  intro sign' mem same
  obtain rfl : sign = sign' := Token.punctuator.inj (Option.some_inj.mp same)
  exact other mem

theorem operand_continuing_subset (level : Category) :
    level.operand.continuing ⊆ level.continuing := by
  cases level <;> simp [Category.operand, Category.continuing]

/-- The operators of a nonterminal continue what is read from it, but not its operands. -/
theorem mem_continuing_of_operator (isOperator : sign ∈ level.operators) :
    sign ∈ level.continuing ∧ sign ∉ level.operand.continuing := by
  rcases eq_of_mem_operators isOperator with
    ⟨rfl, rfl⟩ | ⟨rfl, rfl⟩ | ⟨rfl, rfl⟩ | ⟨rfl, rfl⟩ <;> decide

/-- What extends an operand begins with an operator. -/
theorem Extends.stops {more : List Token} (extended : Extends level tree more tree')
    (stops : Stops level.operand rest) : Stops level.operand (more ++ rest) := by
  cases extended with
  | done => exact stops
  | more isOperator => exact stops_cons (mem_continuing_of_operator isOperator).2 _

/-- Nothing is extended where no operator follows. -/
theorem Extends.eq_of_stops {more : List Token} (extended : Extends level tree more tree')
    (stops : Stops level (more ++ rest)) : more = [] ∧ tree = tree' := by
  cases extended with
  | done => exact ⟨rfl, rfl⟩
  | more isOperator => exact absurd (mem_continuing_of_operator isOperator).1 stops.ne

/-- Where nothing continues the tree, the reading is determined altogether. -/
theorem Determined.eq (determined : Determined level tokens tree)
    (other : Parses level tokens' tree') (same : tokens ++ rest = tokens' ++ rest')
    (stops : Stops level rest) (stops' : Stops level rest') : tree = tree' ∧ rest = rest' := by
  obtain ⟨more, extended, rfl⟩ :=
    determined _ _ _ _ other same (stops.of_subset (operand_continuing_subset level)) stops'
  obtain ⟨rfl, rfl⟩ := extended.eq_of_stops stops
  exact ⟨rfl, rfl⟩

/-- An operand alone is determined, as what may be read in its place starts with an
operand too. -/
theorem Determined.single (isLevel : level.operators ≠ [])
    (determined : Determined level.operand tokens tree) : Determined level tokens tree := by
  intro rest tokens' tree' rest' other same stops stops'
  obtain ⟨start, first, more, parsed, extended, rfl⟩ := other.exists_extends isLevel
  rw [List.append_assoc] at same
  obtain ⟨rfl, rfl⟩ := determined.eq parsed same stops
    (extended.stops (stops'.of_subset (operand_continuing_subset level)))
  exact ⟨more, extended, rfl⟩

theorem Determined.joined {left right : List Token} {first second : Tree}
    (isOperator : sign ∈ level.operators) (before : Determined level left first)
    (operand : Determined level.operand right second) :
    Determined level (left ++ .punctuator sign :: right) (.binary sign first second) := by
  intro rest tokens' tree' rest' other same stops stops'
  obtain ⟨continues, apart⟩ := mem_continuing_of_operator isOperator
  rw [List.append_assoc] at same
  -- the other reading goes on behind the left operand, and it must be with the same operator
  obtain ⟨more, extended, behind⟩ := before _ _ _ _ other same (stops_cons apart _) stops'
  cases extended with
  | done =>
    rw [List.nil_append] at behind
    rw [← behind] at stops'
    exact absurd continues stops'.ne
  | @more _ second' _ _ right' more _ operand' extended =>
    rw [List.cons_append, List.cons_append, List.append_assoc] at behind
    obtain ⟨isSign, next⟩ := List.cons.inj behind
    obtain rfl := Token.punctuator.inj isSign
    obtain ⟨rfl, rfl⟩ := operand.eq operand' next stops
      (extended.stops (stops'.of_subset (operand_continuing_subset level)))
    exact ⟨more, extended, rfl⟩

/-- Where a tree ends in any case, it is determined if nothing else can be read. -/
theorem Determined.of_eq (closed : level.operators = [])
    (unique : ∀ rest tokens' tree' rest', Parses level tokens' tree' →
      tokens ++ rest = tokens' ++ rest' → Stops level rest → Stops level rest' →
      tree = tree' ∧ rest = rest') : Determined level tokens tree := by
  intro rest tokens' tree' rest' other same stops stops'
  have same' : level.operand = level := by
    cases level with
    | additive | equality | logicalAnd => cases closed
    | _ => rfl
  rw [same'] at stops
  obtain ⟨rfl, rfl⟩ := unique _ _ _ _ other same stops stops'
  exact ⟨[], .done _, rfl⟩

/-- The token can be the first one of an expression. -/
def Opening : Token → Prop
  | .punctuator sign => sign ∈ ["(", "[", "-"]
  | .keyword _ => False
  | _ => True

theorem Parses.opening (parsed : Parses level tokens tree) :
    ∃ first more, tokens = first :: more ∧ Opening first := by
  induction parsed with
  | identifier | number | text => exact ⟨_, _, rfl, trivial⟩
  | array | group | negation => exact ⟨_, _, rfl, by simp [Opening]⟩
  | member _ ih | operand _ ih | term _ ih | compared _ ih | condition _ ih | assigned _ ih
  | expression _ ih => exact ih
  | call _ _ ih | sum _ _ ih | equal _ _ ih | unequal _ _ ih | conjunction _ _ ih
  | assign _ _ ih =>
    obtain ⟨first, more, rfl, opening⟩ := ih
    exact ⟨first, _, rfl, opening⟩

/-- The tokens of a leftmost operand do not begin with a minus sign. -/
theorem Parses.ne_minus (parsed : Parses .leftHandSide tokens tree) :
    tokens ++ rest ≠ .punctuator "-" :: rest' := by
  have primary {tokens : List Token} {tree : Tree} (parsed : Parses .primary tokens tree) :
      tokens.head? ≠ some (.punctuator "-") ∧ tokens ≠ [] := by
    cases parsed with
    | identifier | number | text | array | group => simp
  intro same
  cases parsed with
  | member parsed =>
    obtain ⟨noMinus, nonempty⟩ := primary parsed
    obtain ⟨first, more, rfl⟩ := List.exists_cons_of_ne_nil nonempty
    exact noMinus (congrArg some (List.cons.inj same).1)
  | call parsed =>
    obtain ⟨noMinus, nonempty⟩ := primary parsed
    obtain ⟨first, more, rfl⟩ := List.exists_cons_of_ne_nil nonempty
    exact noMinus (congrArg some (List.cons.inj same).1)

/-- Items behind a first one, with commas in front of them. -/
def listed (items : List (List Token)) : List Token :=
  items.flatMap (.punctuator "," :: ·)

theorem separated_cons (item : List Token) (items : List (List Token)) :
    separated (item :: items) = item ++ listed items := by
  induction items generalizing item with
  | nil => simp [separated, listed]
  | cons next items ih =>
    have rest := ih next
    simp only [separated] at rest
    rw [separated, List.intercalate_cons_cons, rest]
    simp [listed]

section Items

variable {items items' : List (List Token × Tree)} {close : String}

/-- The items are expressions, and they are determined. -/
def Items (items : List (List Token × Tree)) : Prop :=
  ∀ item ∈ items, Parses .assignment item.1 item.2 ∧ Determined .assignment item.1 item.2

theorem stops_listed (isClose : close ∈ [")", "]"]) (list : List (List Token))
    (rest : List Token) : Stops .assignment (listed list ++ .punctuator close :: rest) := by
  cases list with
  | nil =>
    have either : close = ")" ∨ close = "]" := by simpa using isClose
    rcases either with rfl | rfl
    · exact stops_cons (by decide) _
    · exact stops_cons (by decide) _
  | cons item list => exact stops_cons (by decide) _

theorem listed_unique (isClose : close ∈ [")", "]"]) (each : Items items)
    (each' : ∀ item ∈ items', Parses .assignment item.1 item.2)
    (same : listed (items.map Prod.fst) ++ .punctuator close :: rest =
      listed (items'.map Prod.fst) ++ .punctuator close :: rest') :
    items.map Prod.snd = items'.map Prod.snd ∧ rest = rest' := by
  have noComma : close ≠ "," := by
    rintro rfl
    exact absurd isClose (by decide)
  induction items generalizing items' with
  | nil =>
    cases items' with
    | nil => exact ⟨rfl, (List.cons.inj same).2⟩
    | cons item' items' => exact absurd (Token.punctuator.inj (List.cons.inj same).1) noComma
  | cons item items ih =>
    cases items' with
    | nil => exact absurd (Token.punctuator.inj (List.cons.inj same).1).symm noComma
    | cons item' items' =>
      obtain ⟨here, others⟩ := List.forall_mem_cons.mp each
      obtain ⟨here', others'⟩ := List.forall_mem_cons.mp each'
      simp only [List.map_cons, listed, List.flatMap_cons, List.cons_append, List.append_assoc,
        List.cons.injEq, true_and] at same
      obtain ⟨isTree, behind⟩ :=
        here.2.eq here' same (stops_listed isClose _ _) (stops_listed isClose _ _)
      obtain ⟨areTrees, isRest⟩ := ih others others' behind
      exact ⟨by rw [List.map_cons, List.map_cons, isTree, areTrees], isRest⟩

theorem not_opening_close (isClose : close ∈ [")", "]"]) : ¬ Opening (.punctuator close) := by
  have either : close = ")" ∨ close = "]" := by simpa using isClose
  rcases either with rfl | rfl <;> simp [Opening]

/-- Items with commas between them are determined if each of them is. -/
theorem separated_unique (isClose : close ∈ [")", "]"]) (each : Items items)
    (each' : ∀ item ∈ items', Parses .assignment item.1 item.2)
    (same : separated (items.map Prod.fst) ++ .punctuator close :: rest =
      separated (items'.map Prod.fst) ++ .punctuator close :: rest') :
    items.map Prod.snd = items'.map Prod.snd ∧ rest = rest' := by
  cases items with
  | nil =>
    cases items' with
    | nil => exact ⟨rfl, (List.cons.inj same).2⟩
    | cons item' items' =>
      -- no item begins with the closing sign
      obtain ⟨first, more, isFirst, opening⟩ := (each' item' List.mem_cons_self).opening
      rw [List.map_cons, separated_cons, isFirst] at same
      exact absurd ((List.cons.inj same).1 ▸ opening) (not_opening_close isClose)
  | cons item items =>
    cases items' with
    | nil =>
      obtain ⟨first, more, isFirst, opening⟩ := (each item List.mem_cons_self).1.opening
      rw [List.map_cons, separated_cons, isFirst] at same
      exact absurd ((List.cons.inj same).1 ▸ opening) (not_opening_close isClose)
    | cons item' items' =>
      obtain ⟨here, others⟩ := List.forall_mem_cons.mp each
      obtain ⟨here', others'⟩ := List.forall_mem_cons.mp each'
      rw [List.map_cons, List.map_cons, separated_cons, separated_cons, List.append_assoc,
        List.append_assoc] at same
      obtain ⟨isTree, behind⟩ :=
        here.2.eq here' same (stops_listed isClose _ _) (stops_listed isClose _ _)
      obtain ⟨areTrees, isRest⟩ := listed_unique isClose others others' behind
      exact ⟨by rw [List.map_cons, List.map_cons, isTree, areTrees], isRest⟩

end Items

/-! ### One tree at most -/

/-- Nothing continues what is read from the first nonterminal. -/
theorem stops_primary (rest : List Token) : Stops .primary rest :=
  nofun

theorem Parses.logicalAnd (parsed : Parses .leftHandSide tokens tree) :
    Parses .logicalAnd tokens tree :=
  .condition (.compared (.term (.operand parsed)))

theorem Determined.operand (determined : Determined .leftHandSide tokens tree)
    (parsed : Parses .leftHandSide tokens tree) : Determined .unary tokens tree := by
  refine .of_eq rfl fun rest tokens' tree' rest' other same stops stops' => ?_
  cases other with
  | operand other => exact determined.eq other same stops stops'
  | negation other => exact absurd same parsed.ne_minus

theorem Determined.logicalAnd (determined : Determined .leftHandSide tokens tree)
    (parsed : Parses .leftHandSide tokens tree) : Determined .logicalAnd tokens tree := by
  have operand : Determined Category.additive.operand tokens tree := determined.operand parsed
  exact .single (List.cons_ne_nil _ _)
    (.single (List.cons_ne_nil _ _) (.single (List.cons_ne_nil _ _) operand))

/-- Whatever is read as an expression is determined. -/
theorem Parses.determined (parsed : Parses level tokens tree) : Determined level tokens tree := by
  -- in each case, the other reading of the same tokens must end in the same production
  induction parsed with
  | identifier | number | text =>
    refine .of_eq rfl fun rest tokens' tree' rest' other same _ _ => ?_
    cases other with
    | identifier | number | text | array | group => simp_all
  | @array items each ih =>
    refine .of_eq rfl fun rest tokens' tree' rest' other same _ _ => ?_
    cases other with
    | identifier | number | text | group => simp at same
    | @array items' each' =>
      simp only [List.cons_append, List.append_assoc, List.cons.injEq, true_and,
        List.nil_append] at same
      have areItems : Items items := fun item mem => ⟨each item mem, ih item mem⟩
      obtain ⟨areTrees, isRest⟩ := separated_unique (by decide) areItems each' same
      exact ⟨by rw [areTrees], isRest⟩
  | @group tokens inner _ ih =>
    refine .of_eq rfl fun rest tokens' tree' rest' other same _ _ => ?_
    cases other with
    | identifier | number | text | array => simp at same
    | group other =>
      simp only [List.cons_append, List.append_assoc, List.cons.injEq, true_and,
        List.nil_append] at same
      obtain ⟨isTree, isRest⟩ :=
        ih.eq other same (stops_cons (by decide) _) (stops_cons (by decide) _)
      exact ⟨by rw [isTree], (List.cons.inj isRest).2⟩
  | @member tokens tree _ ih =>
    refine .of_eq rfl fun rest tokens' tree' rest' other same stops _ => ?_
    cases other with
    | member other => exact ih.eq other same (stops_primary _) (stops_primary _)
    | call other =>
      -- a call goes on with a parenthesis, and that is not what follows
      rw [List.append_assoc] at same
      obtain ⟨-, rfl⟩ := ih.eq other same (stops_primary _) (stops_primary _)
      exact absurd (by decide) stops.ne
  | @call tokens callee args _ each ih ihArgs =>
    refine .of_eq rfl fun rest tokens' tree' rest' other same _ stops' => ?_
    rw [List.append_assoc] at same
    cases other with
    | member other =>
      obtain ⟨-, rfl⟩ := ih.eq other same (stops_primary _) (stops_primary _)
      exact absurd (by decide) stops'.ne
    | call other each' =>
      rw [List.append_assoc] at same
      obtain ⟨isCallee, behind⟩ := ih.eq other same (stops_primary _) (stops_primary _)
      simp only [List.cons_append, List.append_assoc, List.cons.injEq, true_and,
        List.nil_append] at behind
      have areItems : Items args := fun arg mem => ⟨each arg mem, ihArgs arg mem⟩
      obtain ⟨areArgs, isRest⟩ := separated_unique (by decide) areItems each' behind
      exact ⟨by rw [isCallee, areArgs], isRest⟩
  | operand parsed ih => exact ih.operand parsed
  | negation _ ih =>
    refine .of_eq rfl fun rest tokens' tree' rest' other same stops stops' => ?_
    cases other with
    | operand other => exact absurd same.symm other.ne_minus
    | negation other =>
      obtain ⟨isTree, isRest⟩ := ih.eq other (List.cons.inj same).2 stops stops'
      exact ⟨by rw [isTree], isRest⟩
  | term _ ih | compared _ ih | condition _ ih => exact .single (List.cons_ne_nil _ _) ih
  | sum _ _ ih ihOperand | equal _ _ ih ihOperand | unequal _ _ ih ihOperand
  | conjunction _ _ ih ihOperand => exact .joined (by decide) ih ihOperand
  | assigned _ ih =>
    refine .of_eq rfl fun rest tokens' tree' rest' other same stops stops' => ?_
    cases other with
    | assigned other =>
      exact ih.eq other same (stops.of_subset (by decide)) (stops'.of_subset (by decide))
    | assign target =>
      -- the target alone would be a conjunction, with the assignment sign behind it
      rw [List.append_assoc] at same
      obtain ⟨-, rfl⟩ := ih.eq target.logicalAnd same (stops.of_subset (by decide))
        (stops_cons (by decide) _)
      exact absurd (by decide) stops.ne
  | assign target _ ih ihValue =>
    refine .of_eq rfl fun rest tokens' tree' rest' other same stops stops' => ?_
    rw [List.append_assoc] at same
    cases other with
    | assigned other =>
      obtain ⟨-, rfl⟩ := (ih.logicalAnd target).eq other same (stops_cons (by decide) _)
        (stops'.of_subset (by decide))
      exact absurd (by decide) stops'.ne
    | assign other value =>
      rw [List.append_assoc] at same
      obtain ⟨isTarget, behind⟩ :=
        ih.eq other same (stops_cons (by decide) _) (stops_cons (by decide) _)
      obtain ⟨isValue, isRest⟩ := ihValue.eq value (List.cons.inj behind).2 stops stops'
      exact ⟨by rw [isTarget, isValue], isRest⟩
  | expression _ ih =>
    refine .of_eq rfl fun rest tokens' tree' rest' other same stops stops' => ?_
    cases other with
    | expression other => exact ih.eq other same stops stops'

/-- No list of tokens has two trees. -/
theorem Parses.unique (parsed : Parses level tokens tree) (other : Parses level tokens tree') :
    tree = tree' :=
  (parsed.determined.eq other rfl (stops_nil level) (stops_nil level)).1

end Determination

end PascalCompiler.Ecma
