import PascalCompiler.Scope.NameTable

/-!
# Scopes

A scope is the name table of a level together with the tables of the levels
around it, the nearest first. A name denotes what the nearest table that has its
key says.

## Main definitions

* `Scope`: the tables visible at a level
* `Scope.kindOf`: what a name denotes
* `Scope.canInvoke`: is a name without arguments a call?
-/

namespace PascalCompiler

/-- The tables visible at a level. -/
structure Scope where
  /-- The names of the level itself. -/
  names : NameTable := .empty
  /-- The tables of the enclosing levels, the nearest first. -/
  outer : List NameTable := []

namespace Scope

/-- All tables of a scope, the nearest first. -/
def tables (scope : Scope) : List NameTable :=
  scope.names :: scope.outer

/-- What the nearest table that has the key says. -/
def findIn? (tables : List NameTable) (key : String) : Option NameKind :=
  tables.findSome? (·.find? key)

/-- What a name denotes, unknown if no table has it. -/
def kindOf (scope : Scope) (name : String) : NameKind :=
  (findIn? scope.tables (NameTable.key name)).getD .unknown

/-- A name without arguments is a call if it denotes a procedure or function,
or if nothing is known about it: then it is taken for an external routine. -/
def canInvoke (scope : Scope) (name : String) : Bool :=
  match scope.kindOf name with
  | .unknown => true
  | kind => kind.invocable

/-- The names of the level itself on one line. -/
def render (scope : Scope) : String :=
  scope.names.render

end Scope

end PascalCompiler
