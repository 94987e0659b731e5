import PascalCompiler.Proofs.Ecma.Grammar

/-!
# Which `if` an `else` belongs to

An `else` belongs to the nearest `if` before it that stands in the same braces and has no
`else` yet. The rule needs no grammar. It is applied token by token, with the unmatched
`if`s of the innermost braces and of the braces around them at hand.

What reading a piece of text does to the `if`s and `else`s depends on what comes before it
only through the number of `if`s that were read. So pieces are described one by one and
their descriptions are put together.

## Main definitions

* `Ecma.Pairing`: the `if`s and `else`s in what has been read
* `Ecma.elseOwners`: the `if` of each `else` in a text
* `Ecma.Reads`: what reading a piece of text does

## Main results

* `Ecma.Reads.append`, `Ecma.Reads.braced`, `Ecma.Reads.ifThen`, `Ecma.Reads.ifElse`: pieces put
  together
-/

namespace PascalCompiler.Ecma

/-! ### Reading token by token -/

/-- The `if`s and `else`s in what has been read. The `if`s are numbered in the order of the
text, from zero. -/
structure Pairing where
  /-- The unmatched `if`s in the innermost braces, the nearest first. -/
  here : List Nat := []
  /-- The unmatched `if`s in the braces around these, the innermost first. -/
  around : List (List Nat) := []
  /-- How many `if`s there were. -/
  count : Nat := 0
  /-- The `if` of each `else`, if there is one for it. -/
  owners : List (Option Nat) := []

namespace Pairing

/-- What a token does to the `if`s and `else`s. -/
def step (state : Pairing) : Token → Pairing
  | .keyword word =>
    if word = "if" then
      { state with here := state.count :: state.here, count := state.count + 1 }
    else if word = "else" then
      { state with here := state.here.tail, owners := state.owners ++ [state.here.head?] }
    else state
  | .punctuator sign =>
    if sign = "\x7b" then { state with here := [], around := state.here :: state.around }
    else if sign = "\x7d" then
      { state with here := state.around.headD [], around := state.around.tail }
    else state
  | .identifier _ | .number _ | .text _ => state

/-- What a text does to the `if`s and `else`s. -/
def read (state : Pairing) (tokens : List Token) : Pairing :=
  tokens.foldl step state

theorem read_append (state : Pairing) (first second : List Token) :
    state.read (first ++ second) = (state.read first).read second :=
  List.foldl_append

theorem read_cons (state : Pairing) (token : Token) (tokens : List Token) :
    state.read (token :: tokens) = (state.step token).read tokens :=
  rfl

end Pairing

/-- The `if` of each `else` in a text. -/
def elseOwners (tokens : List Token) : List (Option Nat) :=
  (Pairing.read {} tokens).owners

/-! ### Pieces of text -/

/-- The piece of text has a number of `if`s. If they are numbered from `n` on, the piece
leaves `left n` unmatched, the nearest first, and its `else`s belong to `attached n`. -/
def Reads (tokens : List Token) (ifs : Nat) (left attached : Nat → List Nat) : Prop :=
  ∀ state : Pairing, state.read tokens =
    { here := left state.count ++ state.here
      around := state.around
      count := state.count + ifs
      owners := state.owners ++ (attached state.count).map some }

/-- There are no braces, `if`s and `else`s in the piece of text. -/
def Inert (tokens : List Token) : Prop :=
  ∀ token ∈ tokens, ∀ state : Pairing, state.step token = state

namespace Inert

variable {first second : List Token}

theorem nil : Inert [] :=
  List.forall_mem_nil _

theorem append (left : Inert first) (right : Inert second) : Inert (first ++ second) :=
  List.forall_mem_append.mpr ⟨left, right⟩

theorem cons {token : Token} (here : ∀ state : Pairing, state.step token = state)
    (rest : Inert first) : Inert (token :: first) :=
  List.forall_mem_cons.mpr ⟨here, rest⟩

theorem punctuator {sign : String} (other : sign ≠ "\x7b" ∧ sign ≠ "\x7d") (rest : Inert first) :
    Inert (.punctuator sign :: first) :=
  rest.cons fun _ => by rw [Pairing.step, if_neg other.1, if_neg other.2]

theorem separated {items : List (List Token)} (each : ∀ item ∈ items, Inert item) :
    Inert (separated items) := by
  induction items with
  | nil => exact nil
  | cons item items ih =>
    obtain ⟨here, others⟩ := List.forall_mem_cons.mp each
    cases items with
    | nil => simpa [Ecma.separated] using here
    | cons next items =>
      rw [Ecma.separated, List.intercalate_cons_cons, List.append_assoc]
      exact here.append ((ih others).punctuator (by decide))

theorem reads (inert : Inert first) : Reads first 0 (fun _ => []) (fun _ => []) := by
  have unchanged : ∀ state : Pairing, state.read first = state := by
    intro state
    induction first with
    | nil => rfl
    | cons token rest ih =>
      obtain ⟨here, others⟩ := List.forall_mem_cons.mp inert
      rw [Pairing.read_cons, here, ih others]
  intro state
  rw [unchanged]
  simp

end Inert

namespace Reads

variable {first second : List Token} {ifs ifs' : Nat}
  {left left' attached attached' : Nat → List Nat}

/-- One piece behind another. -/
theorem append (hFirst : Reads first ifs left attached)
    (hSecond : Reads second ifs' left' attached') :
    Reads (first ++ second) (ifs + ifs') (fun n => left' (n + ifs) ++ left n)
      (fun n => attached n ++ attached' (n + ifs)) := by
  intro state
  rw [Pairing.read_append, hFirst, hSecond]
  simp [Nat.add_assoc]

/-- What stands before does nothing. -/
theorem after (hSecond : Reads second ifs left attached) (inert : Inert first) :
    Reads (first ++ second) ifs left attached := by
  simpa using inert.reads.append hSecond

/-- What stands behind does nothing. -/
theorem before (hFirst : Reads first ifs left attached) (inert : Inert second) :
    Reads (first ++ second) ifs left attached := by
  simpa using hFirst.append inert.reads

/-- Nothing behind the braces belongs to an `if` in them. -/
theorem braced (inside : Reads first ifs left attached) :
    Reads (.punctuator "\x7b" :: (first ++ [.punctuator "\x7d"])) ifs (fun _ => []) attached := by
  intro state
  rw [Pairing.read_cons, Pairing.read_append, inside]
  simp [Pairing.read, Pairing.step]

/-- An `if` without an `else` is left behind those of its branch. -/
theorem ifThen {test : List Token} (inert : Inert test) (branch : Reads first ifs left attached) :
    Reads (.keyword "if" :: (test ++ first)) (ifs + 1) (fun n => left (n + 1) ++ [n])
      (fun n => attached (n + 1)) := by
  intro state
  rw [Pairing.read_cons, branch.after inert]
  simp [Pairing.step, Nat.add_comm, Nat.add_left_comm]

/-- An `else` behind a branch belongs to the nearest of the `if`s that the branch leaves, and
to the `if` before the branch when there are none. -/
theorem ifElse {test : List Token} (inert : Inert test) (branch : Reads first ifs left attached)
    (other : Reads second ifs' left' attached') :
    Reads (.keyword "if" :: (test ++ (first ++ .keyword "else" :: second))) (ifs + ifs' + 1)
      (fun n => left' (n + 1 + ifs) ++ (left (n + 1) ++ [n]).tail)
      (fun n => attached (n + 1) ++ (left (n + 1)).headD n :: attached' (n + 1 + ifs)) := by
  intro state
  rw [← List.append_assoc, ← List.cons_append, Pairing.read_append, branch.ifThen inert,
    Pairing.read_cons, other]
  have count : state.count + (ifs + 1) = state.count + 1 + ifs := by omega
  have total : state.count + 1 + ifs + ifs' = state.count + (ifs + ifs' + 1) := by omega
  -- is there an `if` left in the branch?
  cases remaining : left (state.count + 1) <;>
    simp [Pairing.step, remaining, count, total]

end Reads

end PascalCompiler.Ecma
