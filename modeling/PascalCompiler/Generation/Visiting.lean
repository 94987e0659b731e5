import PascalCompiler.Generation.Context

/-!
# Visiting the nodes of a tree

What the generator does at a node can depend on the nodes being visited: on their
scopes, on the kind of the parent, and, for an error, on all of them. How the
visited nodes are kept is not its business. It only needs to look at them and to
go on inside of a node, and is written once for everything that can do both.

There are two ways to keep the visited nodes. A walk has one stack that all
functions work on: a node is pushed when it is entered and popped when it is left.
A descent hands the visited nodes down to the parts of a node, so that nothing has
to be undone on the way back.

## Main definitions

* `Visiting`: computations that look at the visited nodes and enter nodes
* `Walk`: computations on a stack of visited nodes
* `Descent`: computations that the visited nodes are handed down to
* `Generation.answer`: what a descent gives inside of the given nodes
-/

namespace PascalCompiler

/-- Computations of the generator, which can look at the nodes being visited and
go on inside of a node. -/
class Visiting (m : Type → Type) extends Monad m where
  /-- What is told by looking at the visited nodes. -/
  look {α : Type} (tell : Context → Except GenerationError α) : m α
  /-- A computation inside of a node. -/
  visit {α : Type} (node : Node) (inside : m α) : m α

/-! ### Walks -/

/-- A computation on the stack of visited nodes. The stack is still there after a failure. -/
def Walk (α : Type) : Type :=
  Context → Except GenerationError α × Context

namespace Walk

variable {α β : Type}

/-- One computation after the other. The second is left out if the first fails. -/
def andThen (walk : Walk α) (next : α → Walk β) : Walk β :=
  fun stack =>
    match walk stack with
    | (.ok a, after) => next a after
    | (.error error, after) => (.error error, after)

/-- A computation inside of a node. The node is pushed before it. Behind it the top of
the stack is popped, also when it fails. -/
def inside (node : Node) (walk : Walk α) : Walk α :=
  fun stack =>
    let (result, after) := walk (stack.enter node)
    (result, after.leave?.getD after)

instance : Visiting Walk where
  pure a := fun stack => (.ok a, stack)
  bind := andThen
  look tell := fun stack => (tell stack, stack)
  visit := inside

end Walk

/-! ### Descents -/

/-- A computation that the visited nodes are handed down to. -/
def Descent (α : Type) : Type :=
  Context → Except GenerationError α

instance : Visiting Descent where
  pure a := fun _ => .ok a
  bind descent next := fun context => descent context >>= fun a => next a context
  look tell := tell
  visit node descent := fun context => descent (context.enter node)

namespace Generation

/-- What a descent gives inside of the given nodes. -/
def answer {α : Type} (context : Context) (descent : Descent α) : Except GenerationError α :=
  descent context

section Answers

variable {α β : Type} (context : Context)

@[simp]
theorem answer_pure (a : α) : answer context (pure a) = .ok a := rfl

@[simp]
theorem answer_bind (descent : Descent α) (next : α → Descent β) :
    answer context (descent >>= next) =
      answer context descent >>= fun a => answer context (next a) := rfl

@[simp]
theorem answer_look (tell : Context → Except GenerationError α) :
    answer context (Visiting.look tell) = tell context := rfl

@[simp]
theorem answer_visit (node : Node) (descent : Descent α) :
    answer context (Visiting.visit node descent) = answer (context.enter node) descent := rfl

end Answers

/-! ### Looking at the visited nodes -/

variable {m : Type → Type} [Visiting m] {α : Type}

/-- The failure to find a part of the innermost node. -/
def missing (part : Part) : m α :=
  Visiting.look fun context => context.missing part

/-- The failure to turn a node into script. -/
def unsupported (node : Node) (reason : Reason) : m α :=
  Visiting.look fun context => context.unsupported node reason

/-- Is the parent of the innermost node of the given kind? -/
def parentIs (kind : Kind) : m Bool :=
  Visiting.look fun context => .ok (context.parentIs kind)

end Generation

end PascalCompiler
