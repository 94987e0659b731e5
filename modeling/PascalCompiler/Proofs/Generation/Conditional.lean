import PascalCompiler.Proofs.Ecma.Conditional
import PascalCompiler.Proofs.Generation.Grouping
import PascalCompiler.Proofs.Tree.Everywhere

/-!
# Which `if` a generated `else` belongs to

The branches of an `if` statement are written as they are, with braces only where a branch
is a compound statement. So the `else` of a statement may be read as that of an `if` in its
true branch. This happens if the true branch ends with an `if` that has no `else`, and then
the `else` belongs to another statement than the one whose false branch it is.

## Main definitions

* `Stmt.ifs`, `Stmt.owners`: the `if` statements of a tree, numbered in the order of the text, and
  those with a false branch
* `Stmt.isOpen`: a statement would take an `else` behind it
* `Node.KeepsElse`: no branch takes the `else` of a statement

## Main results

* `Generation.follows_stmt`: how the `else`s of a generated statement are read
* `Generation.else_kept_iff`: when each of them belongs to its statement
-/

namespace PascalCompiler

/-! ### The `if` statements of a tree -/

namespace Stmt

mutual

/-- How many `if` statements there are in a statement. -/
def ifs : Stmt → Nat
  | .assign .. | .call .. => 0
  | .compound ⟨_, body⟩ => ifsAll body
  | .ifThen _ _ onTrue onFalse => ifs? onTrue + ifs? onFalse + 1
  | .tryExcept _ body handlers => ifsAll body + ifsHandling handlers
  | .tryFinally _ body cleanup => ifsAll body + ifsAll cleanup

/-- How many there are in a statement that may be missing. -/
def ifs? : Option Stmt → Nat
  | none => 0
  | some s => ifs s

/-- How many there are in a list of statements. -/
def ifsAll : List (Option Stmt) → Nat
  | [] => 0
  | s :: rest => ifs? s + ifsAll rest

/-- How many there are in what follows `except`. -/
def ifsHandling : Option Handlers → Nat
  | none => 0
  | some (.all body) => ifsAll body
  | some (.clause ⟨_, _, _, body⟩) => ifs? body

end

mutual

/-- The `if` statements with a false branch, in the order of their `else`s, if the
statements are numbered in the order of their `if`s. -/
def owners : Stmt → Nat → List Nat
  | .assign .., _ | .call .., _ => []
  | .compound ⟨_, body⟩, first => ownersAll body first
  | .ifThen _ _ onTrue none, first => owners? onTrue (first + 1)
  | .ifThen _ _ onTrue (some onFalse), first =>
    owners? onTrue (first + 1) ++ first :: owners onFalse (first + 1 + ifs? onTrue)
  | .tryExcept _ body handlers, first =>
    ownersAll body first ++ ownersHandling handlers (first + ifsAll body)
  | .tryFinally _ body cleanup, first =>
    ownersAll body first ++ ownersAll cleanup (first + ifsAll body)

/-- Those in a statement that may be missing. -/
def owners? : Option Stmt → Nat → List Nat
  | none, _ => []
  | some s, first => owners s first

/-- Those in a list of statements. -/
def ownersAll : List (Option Stmt) → Nat → List Nat
  | [], _ => []
  | s :: rest, first => owners? s first ++ ownersAll rest (first + ifs? s)

/-- Those in what follows `except`. -/
def ownersHandling : Option Handlers → Nat → List Nat
  | none, _ => []
  | some (.all body), first => ownersAll body first
  | some (.clause ⟨_, _, _, body⟩), first => owners? body first

end

/-- Does the statement end with an `if` statement that has no false branch? -/
def isOpen : Stmt → Bool
  | .ifThen _ _ _ none => true
  | .ifThen _ _ _ (some onFalse) => isOpen onFalse
  | _ => false

end Stmt

/-- If the node is an `if` statement with a false branch, its true branch does not end with an
`if` statement that has none. -/
def Node.KeepsElse : Node → Prop
  | .stmt (.ifThen _ _ onTrue (some _)) => ∀ s ∈ onTrue, s.isOpen = false
  | _ => True

/-- Is the node part of an expression? -/
def Node.isOperand : Node → Bool
  | .expr _ | .range _ | .ident _ => true
  | _ => false

theorem isOperand_child (node : Node) (operand : node.isOperand) :
    ∀ part ∈ node.parts, ∀ child ∈ part.nodes, child.isOperand := by
  have isOperand_element (element : Element) : element.node.isOperand := by
    cases element <;> rfl
  cases node with
  | expr e =>
    cases e <;> simp only [Node.parts, Expr.parts, Component.mandatory, forall_mem_child,
      forall_mem_listOf, List.forall_mem_cons, isOperand_element] <;>
      simp [Node.isOperand, Component.nodes]
  | range | ident =>
    simp only [Node.parts, Component.mandatory, forall_mem_child, List.forall_mem_cons]
    simp [Node.isOperand, Component.nodes]
  | _ => cases operand

/-- There are no statements in expressions. -/
theorem keepsElse_expr (e : Expr) : (Node.expr e).All Node.KeepsElse := by
  refine all_of_closed (rfl : (Node.expr e).isOperand) isOperand_child fun node operand => ?_
  cases node with
  | expr | range | ident => trivial
  | _ => cases operand

/-! ### Pieces of text and what they are meant to be -/

section Follows

open Ecma

/-- The `else`s of a piece of text are as many as there should be, and they belong to their
`if`s in case of `kept`. -/
structure Kept (owners attached : Nat → List Nat) (kept : Prop) : Prop where
  length_eq : ∀ n, (attached n).length = (owners n).length
  eq_iff : ∀ n, attached n = owners n ↔ kept

theorem Kept.nil : Kept (fun _ => []) (fun _ => []) True :=
  ⟨fun _ => rfl, fun _ => iff_of_true rfl trivial⟩

theorem Kept.congr {owners attached : Nat → List Nat} {kept kept' : Prop}
    (h : Kept owners attached kept) (same : kept ↔ kept') : Kept owners attached kept' :=
  ⟨h.length_eq, fun n => (h.eq_iff n).trans same⟩

theorem Kept.append {owners owners' attached attached' : Nat → List Nat} {kept kept' : Prop}
    (h : Kept owners attached kept) (h' : Kept owners' attached' kept') (ifs : Nat) :
    Kept (fun n => owners n ++ owners' (n + ifs)) (fun n => attached n ++ attached' (n + ifs))
      (kept ∧ kept') where
  length_eq n := by rw [List.length_append, List.length_append, h.length_eq, h'.length_eq]
  eq_iff n := by
    rw [← h.eq_iff n, ← h'.eq_iff (n + ifs)]
    exact ⟨fun same => List.append_inj same (h.length_eq n), fun ⟨first, second⟩ => by
      rw [first, second]⟩

/-- Reading a piece of text finds its `if`s, and attaches the `else`s to them in case of `kept`.
If they are, no `if` is left behind in case of `closed`. -/
def Follows (tokens : List Token) (ifs : Nat) (owners : Nat → List Nat) (kept closed : Prop) :
    Prop :=
  ∃ left attached, Reads tokens ifs left attached ∧ Kept owners attached kept ∧
    (∀ n, ∀ i ∈ left n, n ≤ i) ∧ (kept → ∀ n, left n = [] ↔ closed)

namespace Follows

variable {tokens first second test : List Token} {ifs ifs' : Nat} {owners owners' : Nat → List Nat}
  {kept kept' closed closed' : Prop}

theorem congr (h : Follows tokens ifs owners kept closed) (count : ifs = ifs')
    (same : ∀ n, owners n = owners' n) (iff : kept ↔ kept') (iff' : closed ↔ closed') :
    Follows tokens ifs' owners' kept' closed' := by
  obtain rfl : owners = owners' := funext same
  obtain ⟨left, attached, reads, isKept, above, none⟩ := h
  exact ⟨left, attached, count ▸ reads, isKept.congr iff, above,
    fun holds n => (none (iff.mpr holds) n).trans iff'⟩

theorem inert (h : Inert tokens) : Follows tokens 0 (fun _ => []) True True :=
  ⟨_, _, h.reads, .nil, nofun, fun _ _ => iff_of_true rfl trivial⟩

theorem append (h : Follows first ifs owners kept closed)
    (h' : Follows second ifs' owners' kept' closed') :
    Follows (first ++ second) (ifs + ifs') (fun n => owners n ++ owners' (n + ifs))
      (kept ∧ kept') (closed ∧ closed') := by
  obtain ⟨left, attached, reads, isKept, above, none⟩ := h
  obtain ⟨left', attached', reads', isKept', above', none'⟩ := h'
  refine ⟨_, _, reads.append reads', isKept.append isKept' ifs, fun n i mem => ?_,
    fun holds n => ?_⟩
  · rcases List.mem_append.mp mem with mem | mem
    · exact Nat.le_trans (Nat.le_add_right n ifs) (above' (n + ifs) i mem)
    · exact above n i mem
  · rw [List.append_eq_nil_iff, none holds.1, none' holds.2, and_comm]

/-- What stands before does nothing. -/
theorem after (h : Follows second ifs owners kept closed) (isInert : Inert first) :
    Follows (first ++ second) ifs owners kept closed := by
  obtain ⟨left, attached, reads, rest⟩ := h
  exact ⟨left, attached, reads.after isInert, rest⟩

/-- Braces leave nothing behind. -/
theorem braced (h : Follows first ifs owners kept closed) :
    Follows (.punctuator "\x7b" :: (first ++ [.punctuator "\x7d"])) ifs owners kept True := by
  obtain ⟨left, attached, reads, isKept, -⟩ := h
  exact ⟨_, attached, reads.braced, isKept, nofun, fun _ _ => iff_of_true rfl trivial⟩

/-- An `if` without an `else` is always left behind. -/
theorem ifThen (hTest : Inert test) (h : Follows first ifs owners kept closed) :
    Follows (.keyword "if" :: (test ++ first)) (ifs + 1) (fun n => owners (n + 1)) kept False := by
  obtain ⟨left, attached, reads, isKept, above, -⟩ := h
  refine ⟨_, _, reads.ifThen hTest, ⟨fun n => isKept.length_eq (n + 1),
    fun n => isKept.eq_iff (n + 1)⟩, fun n i mem => ?_, fun _ n => by simp⟩
  rcases List.mem_append.mp mem with mem | mem
  · exact Nat.le_of_succ_le (above (n + 1) i mem)
  · exact Nat.le_of_eq (List.mem_singleton.mp mem).symm

/-- The `else` belongs to the `if` in front if its branch leaves none behind. -/
theorem ifElse (hTest : Inert test) (h : Follows first ifs owners kept closed)
    (h' : Follows second ifs' owners' kept' closed') :
    Follows (.keyword "if" :: (test ++ (first ++ .keyword "else" :: second))) (ifs + ifs' + 1)
      (fun n => owners (n + 1) ++ n :: owners' (n + 1 + ifs)) ((kept ∧ closed) ∧ kept')
      closed' := by
  obtain ⟨left, attached, reads, isKept, above, none⟩ := h
  obtain ⟨left', attached', reads', isKept', above', none'⟩ := h'
  -- the `if`s of the branch have greater numbers than the one in front
  have nearest (n : Nat) : (left (n + 1)).headD n = n ↔ left (n + 1) = [] := by
    cases remaining : left (n + 1) with
    | nil => simp
    | cons i rest =>
      have greater : n + 1 ≤ i := above (n + 1) i (by simp [remaining])
      simp
      omega
  refine ⟨_, _, reads.ifElse hTest reads', ⟨fun n => ?_, fun n => ?_⟩, fun n i mem => ?_,
    fun holds n => ?_⟩
  · rw [List.length_append, List.length_append, List.length_cons, List.length_cons,
      isKept.length_eq, isKept'.length_eq]
  · constructor
    · intro same
      obtain ⟨before, behind⟩ := List.append_inj same (isKept.length_eq (n + 1))
      obtain ⟨own, behind⟩ := List.cons.inj behind
      have holds : kept := (isKept.eq_iff (n + 1)).mp before
      exact ⟨⟨holds, (none holds (n + 1)).mp ((nearest n).mp own)⟩, (isKept'.eq_iff _).mp behind⟩
    · rintro ⟨⟨holds, isClosed⟩, holds'⟩
      rw [(isKept.eq_iff (n + 1)).mpr holds, (isKept'.eq_iff _).mpr holds',
        (nearest n).mpr ((none holds (n + 1)).mpr isClosed)]
  · rcases List.mem_append.mp mem with mem | mem
    · have := above' (n + 1 + ifs) i mem
      omega
    · rcases List.mem_append.mp (List.mem_of_mem_tail mem) with mem | mem
      · exact Nat.le_of_succ_le (above (n + 1) i mem)
      · exact Nat.le_of_eq (List.mem_singleton.mp mem).symm
  · -- only the other branch can leave an `if` behind
    obtain ⟨⟨holds, isClosed⟩, holds'⟩ := holds
    rw [(none holds (n + 1)).mpr isClosed]
    simpa using none' holds' (n + 1 + ifs)

end Follows

end Follows

/-! ### The texts of expressions -/

namespace Script

open Ecma

theorem inert_parenthesised {tokens : List Token} (inert : Inert tokens) :
    Inert (parenthesised tokens) :=
  (inert.append (Inert.nil.punctuator (by decide))).punctuator (by decide)

mutual

theorem Expr.inert_tokens : ∀ e : Expr, Inert e.tokens
  | .text _ | .code _ | .name _ => Inert.nil.cons fun _ => rfl
  | .integer (.ofNat _) => Inert.nil.cons fun _ => rfl
  | .integer (.negSucc _) => (Inert.nil.cons fun _ => rfl).punctuator (by decide)
  | .call _ args => by
    rw [tokens]
    exact (inert_parenthesised (.separated (inert_tokensAll args))).cons fun _ => rfl
  | .parens inner => by
    rw [tokens]
    exact inert_parenthesised (inert_tokens inner)
  | .binary op left right => by
    rw [tokens]
    have other : op.spelling ≠ "\x7b" ∧ op.spelling ≠ "\x7d" := by cases op <;> decide
    exact (inert_tokens left).append ((inert_tokens right).punctuator other)
  | .array elements => by
    rw [tokens]
    have inside := Inert.separated (inert_tokensAll elements)
    exact (inside.append (Inert.nil.punctuator (by decide))).punctuator (by decide)

theorem Expr.inert_tokensAll : ∀ list : List Expr, ∀ tokens ∈ Expr.tokensAll list, Inert tokens
  | [] => List.forall_mem_nil _
  | e :: rest => List.forall_mem_cons.mpr ⟨inert_tokens e, inert_tokensAll rest⟩

end

end Script

/-! ### Statements -/

namespace Generation

open Ecma

/-- A piece of text without `if`s is that of a statement without any. -/
theorem follows_inert {s : Stmt} {tokens : List Token} (inert : Inert tokens) (none : s.ifs = 0)
    (noOwners : ∀ n, s.owners n = []) (keeps : (Node.stmt s).All Node.KeepsElse)
    (closed : s.isOpen = false) :
    Follows tokens s.ifs s.owners ((Node.stmt s).All Node.KeepsElse) (s.isOpen = false) :=
  (Follows.inert inert).congr none.symm (fun n => (noOwners n).symm) (iff_of_true trivial keeps)
    (iff_of_true trivial closed)

theorem inert_try : Inert [.keyword "try"] :=
  Inert.nil.cons fun _ => rfl

theorem inert_catch : Inert (.keyword "catch" :: Script.parenthesised [.identifier "$e"]) :=
  (Script.inert_parenthesised (Inert.nil.cons fun _ => rfl)).cons fun _ => rfl

/-- Two lists in braces, with words before them. -/
theorem follows_try {first second : List (List Token)} {words middle : List Token}
    {ifs ifs' : Nat} {owners owners' : Nat → List Nat} {kept kept' closed closed' : Prop}
    (before : Inert words) (between : Inert middle)
    (h : Follows first.flatten ifs owners kept closed)
    (h' : Follows second.flatten ifs' owners' kept' closed') :
    Follows (words ++ (Script.braced first ++ (middle ++ Script.braced second))) (ifs + ifs')
      (fun n => owners n ++ owners' (n + ifs)) (kept ∧ kept') True :=
  ((h.braced.append (h'.braced.after between)).after before).congr rfl (fun _ => rfl) .rfl
    (true_and _).to_iff

mutual

/-- Reading the text of a statement finds its `if`s. The `else`s are attached to their own if
no branch in the statement takes one. A compound statement leaves none behind, unless its
braces are those of a block. -/
theorem follows_stmt (context : Context) :
    ∀ s : Stmt, (∀ value, s = .compound value → context.currentIs .block = false) →
      Yields (fun script => Follows script.tokens s.ifs s.owners
        ((Node.stmt s).All Node.KeepsElse) (s.isOpen = false)) (answer context (stmt s))
  | .assign position target op source, _ => by
    rw [stmt]
    have keeps : (Node.stmt (.assign position target op source)).All Node.KeepsElse :=
      all_assign.mpr ⟨trivial, fun _ _ => trivial, fun e _ => keepsElse_expr e⟩
    refine .visit (.bind .any fun name _ => ?_)
    split
    · refine .bind .any fun value _ => .pure (follows_inert ?_ ?_ ?_ keeps rfl)
      · rw [Script.Stmt.tokens]
        exact ((value.inert_tokens.append (Inert.nil.punctuator (by decide))).punctuator
          (by decide)).cons fun _ => rfl
      · rw [Stmt.ifs]
      · intro n
        rw [Stmt.owners]
    · exact .error _
  | .call position target args, _ => by
    rw [stmt]
    have keeps : (Node.stmt (.call position target args)).All Node.KeepsElse :=
      all_callStmt.mpr ⟨trivial, fun _ _ => trivial, fun _ _ e _ => keepsElse_expr e⟩
    refine .visit (.bind .any fun ident _ => .bind .any fun values _ =>
      .pure (follows_inert ?_ ?_ ?_ keeps rfl))
    · rw [Script.Stmt.tokens]
      have inside := Inert.separated (Script.Expr.inert_tokensAll values)
      exact ((Script.inert_parenthesised inside).append
        (Inert.nil.punctuator (by decide))).cons fun _ => rfl
    · rw [Stmt.ifs]
    · intro n
      rw [Stmt.owners]
  | .compound value, apart => by
    rw [stmt]
    intro script generated
    obtain ⟨closed, braced, follows⟩ := follows_compound context value script generated
    have closes : closed := braced (apart value rfl)
    exact follows.congr rfl (fun _ => rfl) .rfl (iff_of_true closes (by simp [Stmt.isOpen]))
  | .ifThen position condition onTrue none, _ => by
    rw [stmt, Stmt.ifs, Stmt.ifs?]
    refine .visit (.bind .any fun test _ => .bind (follows_branch _ rfl onTrue) fun script branch =>
      .pure ?_)
    rw [Script.Stmt.tokens]
    refine (branch.ifThen (Script.inert_parenthesised test.inert_tokens)).congr rfl
      (fun n => ?_) ?_ ?_
    · rw [Stmt.owners]
    · rw [all_ifThen]
      constructor
      · intro keeps
        exact ⟨trivial, fun e _ => keepsElse_expr e, keeps, nofun⟩
      · exact fun keeps => keeps.2.2.1
    · simp [Stmt.isOpen]
  | .ifThen position condition onTrue (some onFalse), _ => by
    rw [stmt, Stmt.ifs, Stmt.ifs?]
    refine .visit (.bind .any fun test _ => .bind (follows_branch _ rfl onTrue) fun script branch =>
      .bind (follows_stmt _ onFalse fun _ _ => rfl) fun script' other => .pure ?_)
    rw [Script.Stmt.tokens]
    refine (branch.ifElse (Script.inert_parenthesised test.inert_tokens) other).congr rfl
      (fun n => ?_) ?_ ?_
    · rw [Stmt.owners]
    · rw [all_ifThen]
      constructor
      -- the `else` is kept by this `if` in case its branch leaves none behind
      · rintro ⟨⟨keeps, closed⟩, keeps'⟩
        exact ⟨closed, fun e _ => keepsElse_expr e, keeps, by simpa using keeps'⟩
      · rintro ⟨closed, -, keeps, keeps'⟩
        exact ⟨⟨keeps, closed⟩, keeps' onFalse rfl⟩
    · rw [Stmt.isOpen]
  | .tryExcept position body none, _ => by
    rw [stmt, Stmt.ifs, Stmt.ifsHandling]
    refine .visit (.bind (follows_stmts _ rfl body) fun scripts inside => .pure ?_)
    rw [Script.Stmt.tokens]
    have handling : Follows (Script.Stmt.tokensAll []).flatten 0 (fun _ => []) True True :=
      .inert .nil
    refine (follows_try inert_try inert_catch inside handling).congr rfl (fun n => ?_) ?_ ?_
    · rw [Stmt.owners, Stmt.ownersHandling]
    · have noHandlers : (Component.handlers none).nodes = [] := rfl
      rw [all_tryExcept, noHandlers]
      constructor
      · rintro ⟨keeps, -⟩
        exact ⟨trivial, keeps, List.forall_mem_nil _⟩
      · rintro ⟨-, keeps, -⟩
        exact ⟨keeps, trivial⟩
    · simp [Stmt.isOpen]
  | .tryExcept position body (some (.all handlers)), _ => by
    rw [stmt, Stmt.ifs, Stmt.ifsHandling]
    refine .visit (.bind (follows_stmts _ rfl body) fun scripts inside =>
      .bind (follows_stmts _ rfl handlers) fun scripts' handling => .pure ?_)
    rw [Script.Stmt.tokens]
    refine (follows_try inert_try inert_catch inside handling).congr rfl (fun n => ?_) ?_ ?_
    · rw [Stmt.owners, Stmt.ownersHandling]
    · rw [all_tryExcept, Component.handlers, forall_mem_listOf]
      exact (true_and _).symm.to_iff
    · simp [Stmt.isOpen]
  | .tryExcept position body (some (.clause clause)), _ => by
    rw [stmt]
    exact .error _
  | .tryFinally position body cleanup, _ => by
    rw [stmt, Stmt.ifs]
    refine .visit (.bind (follows_stmts _ rfl body) fun scripts inside =>
      .bind (follows_stmts _ rfl cleanup) fun scripts' final => .pure ?_)
    rw [Script.Stmt.tokens]
    have inert_finally : Inert [.keyword "finally"] := Inert.nil.cons fun _ => rfl
    refine (follows_try inert_try inert_finally inside final).congr rfl (fun n => ?_) ?_ ?_
    · rw [Stmt.owners]
    · rw [all_tryFinally]
      exact (true_and _).symm.to_iff
    · simp [Stmt.isOpen]

/-- Within the braces of a block, what the last statement leaves behind is left behind. -/
theorem follows_compound (context : Context) :
    ∀ value : Compound, Yields
      (fun script => ∃ closed, (context.currentIs .block = false → closed) ∧
        Follows script.tokens (Stmt.compound value).ifs (Stmt.compound value).owners
          ((Node.stmt (.compound value)).All Node.KeepsElse) closed)
      (answer context (compound value))
  | ⟨position, body⟩ => by
    rw [compound, Stmt.ifs]
    refine .visit (.bind .parentIs fun inBlock asked =>
      .bind (follows_stmts _ rfl body) fun scripts inside => .pure ?_)
    have same : ∀ n, Stmt.ownersAll body n = (Stmt.compound ⟨position, body⟩).owners n := by
      intro n
      rw [Stmt.owners]
    rw [← asked]
    cases inBlock with
    | true =>
      refine ⟨_, by simp, inside.congr rfl same ?_ .rfl⟩
      rw [all_compound]
      exact (true_and _).symm.to_iff
    | false =>
      refine ⟨_, fun _ => trivial, inside.braced.congr rfl same ?_ .rfl⟩
      rw [all_compound]
      exact (true_and _).symm.to_iff

theorem follows_branch (context : Context) (apart : context.currentIs .block = false) :
    ∀ s : Option Stmt, Yields (fun script => Follows script.tokens (Stmt.ifs? s) (Stmt.owners? s)
      (∀ a ∈ s, (Node.stmt a).All Node.KeepsElse) (∀ a ∈ s, a.isOpen = false))
      (answer context (branch s))
  | none => by
    rw [branch, Stmt.ifs?]
    refine .pure ((Follows.inert ?_).congr rfl (fun n => ?_) ?_ ?_)
    · exact Inert.nil.punctuator (by decide)
    · rw [Stmt.owners?]
    · simp
    · simp
  | some s => by
    rw [branch, Stmt.ifs?]
    intro script generated
    refine (follows_stmt context s (fun _ _ => apart) script generated).congr rfl (fun n => ?_)
      ?_ ?_
    · rw [Stmt.owners?]
    · simp
    · simp

theorem follows_stmts (context : Context) (apart : context.currentIs .block = false) :
    ∀ list : List (Option Stmt), Yields (fun scripts =>
      Follows (Script.Stmt.tokensAll scripts).flatten (Stmt.ifsAll list) (Stmt.ownersAll list)
        (∀ item ∈ list, ∀ a ∈ item, (Node.stmt a).All Node.KeepsElse)
        (∀ item ∈ list, ∀ a ∈ item, a.isOpen = false)) (answer context (stmts list))
  | [] => by
    rw [stmts, Stmt.ifsAll]
    refine .pure ((Follows.inert .nil).congr rfl (fun n => ?_) ?_ ?_)
    · rw [Stmt.ownersAll]
    · simp
    · simp
  | none :: rest => by
    rw [stmts, stmt?]
    exact .error _
  | some s :: rest => by
    rw [stmts, stmt?, Stmt.ifsAll, Stmt.ifs?]
    refine .bind (follows_stmt context s fun _ _ => apart) fun script first =>
      .bind (follows_stmts context apart rest) fun scripts others => .pure ?_
    rw [Script.Stmt.tokensAll, List.flatten_cons]
    refine (first.append others).congr rfl (fun n => ?_) ?_ ?_
    · rw [Stmt.ownersAll, Stmt.owners?, Stmt.ifs?]
    · simp
    · simp

end

/-- The text of a statement has one list of tokens. -/
theorem tokens_stmt_iff {alphabet : Alphabet} {s : Stmt} {script : Script.Stmt}
    (identifiers : ∀ ident : Ident, (Node.stmt s).Within (.ident ident) →
      IsPascalIdentifier alphabet ident.name)
    (generated : answer context (stmt s) = .ok script) (tokens : List Token) :
    Tokens alphabet script.print.toList tokens ↔ tokens = script.tokens := by
  obtain ⟨valid, -⟩ := (outcome_stmt context s .root).valid script generated
  have names : ∀ name, (Node.stmt s).Names name → Script.IsName alphabet name := by
    rintro name ⟨ident, within, rfl⟩
    exact Script.isName_identifier (identifiers ident within)
  have scanned : Tokens alphabet script.print.toList script.tokens := by
    simpa using valid.stands names [] [] .nil
  constructor
  · exact fun other => other.unique scanned
  · rintro rfl
    exact scanned

/-- The `else`s of the text of a statement belong to their own `if`s if no branch in the
statement takes one. -/
theorem elseOwners_iff {s : Stmt} {script : Script.Stmt}
    (generated : answer context (stmt s) = .ok script) :
    elseOwners script.tokens = (s.owners 0).map some ↔ (Node.stmt s).All Node.KeepsElse := by
  have follows : ∃ closed, Follows script.tokens s.ifs s.owners
      ((Node.stmt s).All Node.KeepsElse) closed := by
    cases s with
    | compound value =>
      rw [stmt] at generated
      obtain ⟨closed, -, follows⟩ := follows_compound context value script generated
      exact ⟨closed, follows⟩
    | assign | call | ifThen | tryExcept | tryFinally =>
      exact ⟨_, follows_stmt context _ (by simp) script generated⟩
  obtain ⟨closed, left, attached, reads, isKept, -⟩ := follows
  rw [elseOwners, reads, ← isKept.eq_iff 0]
  exact List.map_inj_right fun _ _ => Option.some_inj.mp

end Generation

/-- The text that is generated for a statement has one list of tokens. If every `else` among
them is read with the nearest unmatched `if` before it in the same braces, they are the
`else`s of the statements whose false branches they are in front of if and only if no
statement with a false branch has a true branch that ends with an `if` without one. -/
theorem Generation.else_kept_iff (alphabet : Ecma.Alphabet) {context : Context} {s : Stmt}
    {script : Script.Stmt}
    (identifiers : ∀ ident : Ident, (Node.stmt s).Within (.ident ident) →
      IsPascalIdentifier alphabet ident.name)
    (generated : answer context (stmt s) = .ok script) :
    ∃ tokens,
      (∀ others, Ecma.Tokens alphabet script.print.toList others ↔ others = tokens) ∧
        (Ecma.elseOwners tokens = (s.owners 0).map some ↔
          ∀ node, (Node.stmt s).Within node → node.KeepsElse) :=
  ⟨script.tokens, tokens_stmt_iff identifiers generated, elseOwners_iff generated⟩

section Sample

/-- A call without arguments. -/
def bareCall (name : String) : Stmt :=
  .call .unknown (some ⟨.unknown, name⟩) []

/-- The statement `if 2 then A`. -/
def innerIf : Stmt :=
  .ifThen .unknown (some (.integer .unknown 2)) (some (bareCall "A")) none

/-- An `if` statement with a true branch and the false branch `B`. -/
def outerIf (onTrue : Stmt) : Stmt :=
  .ifThen .unknown (some (.integer .unknown 1)) (some onTrue) (some (bareCall "B"))

/-- A statement between `begin` and `end`. -/
def enclosed (s : Stmt) : Stmt :=
  .compound ⟨.unknown, [some s]⟩

/-- The nodes of an inner `if` statement in an outer one, with `begin` and `end` or without. -/
def conditionalNodes : List Node :=
  [.stmt (outerIf innerIf), .stmt (outerIf (enclosed innerIf)), .stmt (enclosed innerIf),
    .stmt innerIf, .stmt (bareCall "A"), .stmt (bareCall "B"), .ident ⟨.unknown, "A"⟩,
    .ident ⟨.unknown, "B"⟩, .expr (.integer .unknown 1), .expr (.integer .unknown 2)]

theorem isPascalIdentifier_conditional (alphabet : Ecma.Alphabet) {root : Node} {ident : Ident}
    (isRoot : root ∈ conditionalNodes) (within : root.Within (.ident ident)) :
    IsPascalIdentifier alphabet ident.name := by
  have mem : Node.ident ident ∈ conditionalNodes := by
    refine within.mem_of_closed isRoot ?_
    simp [conditionalNodes, outerIf, enclosed, innerIf, bareCall, Node.parts, Stmt.parts,
      Expr.parts, Component.mandatory, Component.optional, Component.listOf, Component.nodes,
      List.reduceOption]
  obtain rfl | rfl : ident = ⟨.unknown, "A"⟩ ∨ ident = ⟨.unknown, "B"⟩ := by
    simpa [conditionalNodes] using mem
  · exact ⟨'A', [], rfl, .inl rfl, List.forall_mem_nil _⟩
  · exact ⟨'B', [], rfl, .inl rfl, List.forall_mem_nil _⟩

end Sample

/-- In `if 1 then begin if 2 then A end else B` the braces keep the `else`. -/
theorem Generation.else_kept_enclosed :
    ∃ script tokens, answer {} (stmt (outerIf (enclosed innerIf))) = .ok script ∧
      script.print = "if (1) \x7bif (2) A();\x7d else B();" ∧
      Ecma.Tokens ⟨fun _ => false, fun _ => false⟩ script.print.toList tokens ∧
      (outerIf (enclosed innerIf)).owners 0 = [0] ∧ Ecma.elseOwners tokens = [some 0] := by
  obtain ⟨script, generated, text⟩ : ∃ script,
      answer {} (stmt (outerIf (enclosed innerIf))) = .ok script ∧
        script.print = "if (1) \x7bif (2) A();\x7d else B();" :=
    exists_ok_of_map (by decide +kernel)
  obtain ⟨tokens, scanned, kept⟩ := else_kept_iff ⟨fun _ => false, fun _ => false⟩
    (fun _ within => isPascalIdentifier_conditional _ (by simp [conditionalNodes]) within) generated
  refine ⟨script, tokens, generated, text, (scanned tokens).mpr rfl, rfl, kept.mpr ?_⟩
  have keeps : (Node.stmt (outerIf (enclosed innerIf))).All Node.KeepsElse := by
    simp [outerIf, enclosed, innerIf, bareCall, all_ifThen, all_compound, all_callStmt,
      keepsElse_expr, Node.KeepsElse, Stmt.isOpen]
  exact keeps

/-- In `if 1 then if 2 then A else B`, where the `else` is that of the first `if`, it is read
as that of the second. -/
theorem Generation.else_lost_nested :
    ∃ script tokens, answer {} (stmt (outerIf innerIf)) = .ok script ∧
      script.print = "if (1) if (2) A(); else B();" ∧
      Ecma.Tokens ⟨fun _ => false, fun _ => false⟩ script.print.toList tokens ∧
      (outerIf innerIf).owners 0 = [0] ∧ Ecma.elseOwners tokens = [some 1] := by
  obtain ⟨script, generated, same⟩ : ∃ script, answer {} (stmt (outerIf innerIf)) = .ok script ∧
      (script.print, Ecma.elseOwners script.tokens) =
        ("if (1) if (2) A(); else B();", [some 1]) :=
    exists_ok_of_map (by decide +kernel)
  obtain ⟨text, attached⟩ := Prod.mk.inj same
  refine ⟨script, script.tokens, generated, text, ?_, rfl, attached⟩
  exact (tokens_stmt_iff (fun _ within => isPascalIdentifier_conditional _
    (by simp [conditionalNodes]) within) generated _).mpr rfl

end PascalCompiler
