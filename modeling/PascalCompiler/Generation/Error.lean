import PascalCompiler.Outline.Node

/-!
# Why no script can be generated

A generation error tells which node could not be turned into script, for what
reason, and the trail of kinds of the nodes being visited, the root first.

## Main definitions

* `Part`, `Reason`: what is wrong with a node
* `GenerationError`: the errors
* `GenerationError.message`, `GenerationError.detail`: their texts
-/

namespace PascalCompiler

/-- The parts of a tree that a script cannot be generated without. -/
inductive Part where
  | block
  | declaration
  | variableDeclaration
  | constantDeclaration
  | parameterDeclaration
  | identifier
  | statement
  | assignmentTarget
  | callTarget
  | expression
  | setElement
  deriving DecidableEq

/-- The words for a part. -/
def Part.words : Part → String
  | .block => "block"
  | .declaration => "declaration"
  | .variableDeclaration => "variable declaration"
  | .constantDeclaration => "constant declaration"
  | .parameterDeclaration => "parameter declaration"
  | .identifier => "identifier"
  | .statement => "statement"
  | .assignmentTarget => "assignment target"
  | .callTarget => "call target"
  | .expression => "expression"
  | .setElement => "set element"

/-- What is wrong with a node. -/
inductive Reason where
  /-- A part is missing. -/
  | missing (part : Part)
  /-- An assignment operator other than `:=`. -/
  | assignmentOperator (op : String)
  /-- A binary operator that scripts have no counterpart for. -/
  | binaryOperator (op : String)
  /-- An exception handler for exceptions of one type. -/
  | handlerClause
  /-- A range in a set constructor. -/
  | setRange
  /-- A control string with a negative number. -/
  | negativeCode (code : Int)
  /-- A control string with a number beyond the last code point. -/
  | codeBeyondUnicode (code : Int)
  /-- Any other remark. -/
  | remark (text : String)
  deriving DecidableEq

/-- The words for a reason. -/
def Reason.words : Reason → String
  | .missing part => "missing " ++ part.words
  | .assignmentOperator op => "unsupported assignment operator: " ++ Quoted.quote op
  | .binaryOperator op => "unsupported binary operator: " ++ Quoted.quote op
  | .handlerClause => "exception handlers are not implemented yet"
  | .setRange => "ranges in set constructors are not implemented yet"
  | .negativeCode code =>
    "control string value cannot be less than 0, but it is " ++ Numeral.decimal code
  | .codeBeyondUnicode code =>
    "control string value 0x" ++ Numeral.hex 1 code.toNat ++ " is not a Unicode code point"
  | .remark text => text

/-- Why no script can be generated. -/
inductive GenerationError where
  /-- A node that cannot stand where it was found. -/
  | unsupported (node : Option Node) (trace : List Kind) (reason : Reason)
  /-- A node with a value outside of its domain. -/
  | invalidValue (node : Option Node) (trace : List Kind) (reason : Reason)
  /-- No visited node has a scope in which to look a name up. -/
  | noScope (trace : List Kind)

namespace GenerationError

/-- The kind of a node, `invalid` if there is none. -/
def kindOf (node : Option Node) : Kind :=
  (node.map Node.kind).getD .invalid

/-- The trail of kinds, one a line and each two columns further in. -/
def trail (trace : List Kind) : String :=
  if trace.isEmpty then ""
  else
    "\nat:" ++ String.join (trace.zipIdx.map fun (kind, depth) =>
      "\n" ++ String.join (List.replicate depth "  ") ++ kind.tag)

/-- A heading, behind the position of the node and in front of the reason and
the trail. -/
def describe (node : Option Node) (trace : List Kind) (heading reason : String) : String :=
  let text := heading ++ (if reason = "" then "" else ": " ++ reason) ++ trail trace
  match node with
  | some n => n.position.label text
  | none => text

/-- The text of an error. -/
def message : GenerationError → String
  | .unsupported node trace reason =>
    describe node trace ("unsupported node type: " ++ (kindOf node).tag) reason.words
  | .invalidValue node trace reason =>
    describe node trace ("invalid value in " ++ (kindOf node).tag) reason.words
  | .noScope trace => describe none trace "context has no root scope" ""

/-- The text of an error followed by the outline of its node. Errors that are
not about one node have no more to say than their text. -/
def detail (error : GenerationError) : String :=
  match error with
  | .unsupported node .. | .invalidValue node .. =>
    error.message ++ "\nnode:\n" ++ Node.dump? node
  | _ => error.message

end GenerationError

end PascalCompiler
