import PascalCompiler.Tree.Node

/-!
# Declarations that cannot be resolved

A defect is a declaration, or an element of one, that is missing or lacks a
name.

## Main definitions

* `Resolution.Defect`: the defects, with their texts
-/

namespace PascalCompiler.Resolution

/-- What is wrong with a declaration. -/
inductive Defect where
  | noDeclaration
  | noVariableDeclaration
  | noConstantDeclaration
  | noParameterDeclaration
  /-- A declaration of the given kind lacks a name. -/
  | unnamed (position : Position) (kind : Kind)
  deriving DecidableEq

/-- The text of a defect. -/
def Defect.message : Defect → String
  | .noDeclaration => "nil declaration"
  | .noVariableDeclaration => "nil variable declaration"
  | .noConstantDeclaration => "nil constant declaration"
  | .noParameterDeclaration => "unknown parameter declaration: <nil>"
  | .unnamed position kind => position.label (kind.tag ++ " without identifier")

end PascalCompiler.Resolution
