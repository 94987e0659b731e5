import PascalCompiler.Generation.Error

/-!
# The nodes being visited

While a tree is walked, the context holds the nodes from the root to the one
being visited. Entering a node makes a new context, so a context never changes
under its user.

## Main definitions

* `Context`: the path of visited nodes
* `Context.enter`, `Context.leave?`: going down and up
* `Context.current?`, `Context.ancestor?`, `Context.parentIs`: looking up the path
* `Context.scope?`: the innermost scope attached to a visited node
* `Context.trace`: the kinds on the path
-/

namespace PascalCompiler

/-- The nodes being visited, the innermost first. -/
structure Context where
  /-- The visited nodes, the innermost first. -/
  path : List Node := []

namespace Context

/-- The context at the root of a tree. -/
def root (node : Node) : Context :=
  ⟨[node]⟩

/-- The context inside a node. -/
def enter (context : Context) (node : Node) : Context :=
  ⟨node :: context.path⟩

/-- The context outside of the current node. -/
def leave? (context : Context) : Option Context :=
  match context.path with
  | [] => none
  | _ :: outer => some ⟨outer⟩

/-- The number of nodes being visited. -/
def depth (context : Context) : Nat :=
  context.path.length

/-- The innermost node. -/
def current? (context : Context) : Option Node :=
  context.path.head?

/-- The node `distance` steps above the parent of the innermost node. -/
def ancestor? (context : Context) (distance : Int) : Option Node :=
  if distance < 0 then none else context.path[distance.toNat + 1]?

/-- Is the parent of the innermost node of the given kind? -/
def parentIs (context : Context) (kind : Kind) : Bool :=
  match context.ancestor? 0 with
  | some node => node.kind = kind
  | none => false

/-- Is the innermost node of the given kind? -/
def currentIs (context : Context) (kind : Kind) : Bool :=
  context.current?.any fun node => node.kind = kind

/-- The parent of a node that was just entered is the node it was entered from. -/
theorem parentIs_enter (context : Context) (node : Node) (kind : Kind) :
    (context.enter node).parentIs kind = context.currentIs kind := by
  obtain ⟨- | ⟨parent, path⟩⟩ := context <;> rfl

/-- Directly inside of a routine one is not directly inside of a program. -/
theorem currentIs_program_routine (context : Context) (routine : Routine) :
    (context.enter (.decl (.routine routine))).currentIs .program = false := by
  obtain ⟨position, - | result, name, params, block, scope⟩ := routine <;> rfl

/-- The kinds of the visited nodes, the root first. -/
def trace (context : Context) : List Kind :=
  context.path.reverse.map Node.kind

theorem trace_enter (context : Context) (node : Node) :
    (context.enter node).trace = context.trace ++ [node.kind] := by
  simp [trace, enter]

theorem leave?_enter (context : Context) (node : Node) :
    (context.enter node).leave? = some context := rfl

/-- The innermost scope attached to a visited node. -/
def scope? (context : Context) : Option Scope :=
  context.path.findSome? Node.scope

/-- The innermost scope attached to a visited node, or the error that there is none. -/
def scope (context : Context) : Except GenerationError Scope :=
  match context.scope? with
  | some scope => .ok scope
  | none => .error (.noScope context.trace)

/-- The failure to turn a node into script. -/
def unsupported {α : Type} (context : Context) (node : Node) (reason : Reason) :
    Except GenerationError α :=
  .error (.unsupported node context.trace reason)

/-- The failure to find a part of the innermost node. -/
def missing {α : Type} (context : Context) (part : Part) : Except GenerationError α :=
  .error (.unsupported context.current? context.trace (.missing part))

end Context

end PascalCompiler
