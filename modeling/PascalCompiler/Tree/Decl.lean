import PascalCompiler.Scope.Basic
import PascalCompiler.Tree.Stmt

/-!
# Declarations

Variables and constants, alone or in a part that lists several; forward headers;
routines with their blocks. A routine carries the scope that name resolution
attached to it, if it was resolved.

## Main definitions

* `VarDecl`, `ConstDecl`: one variable or constant declaration
* `ParamGroup`: parameters declared with one type
* `Header`, `Routine`: a routine announced and a routine given
* `Decl`, `Block`: declarations, and declarations followed by statements
-/

namespace PascalCompiler

/-- One or more variables of a type, perhaps with an initial value. -/
structure VarDecl where
  position : Position := .unknown
  names : List (Option Ident) := []
  type : Option TypeRef := none
  value : Option Expr := none

/-- A constant with its value. -/
structure ConstDecl where
  position : Position := .unknown
  name : Option Ident := none
  type : Option TypeRef := none
  value : Option Expr := none

/-- Parameters declared with one type. -/
structure ParamGroup where
  position : Position := .unknown
  names : List (Option Ident) := []
  type : Option TypeRef := none

/-- A procedure returns nothing, a function a value of its result type. -/
inductive RoutineKind where
  | procedure
  | function (result : Option TypeRef)

/-- A routine announced before it is given. -/
structure Header where
  position : Position := .unknown
  kind : RoutineKind := .procedure
  name : Option Ident := none
  params : List (Option ParamGroup) := []

mutual

/-- A declaration. -/
inductive Decl where
  | var (value : VarDecl)
  | vars (position : Position) (list : List (Option VarDecl))
  | const (value : ConstDecl)
  | consts (position : Position) (list : List (Option ConstDecl))
  | header (value : Header)
  | routine (value : Routine)

/-- A procedure or function. -/
structure Routine where
  position : Position
  kind : RoutineKind
  name : Option Ident
  params : List (Option ParamGroup)
  block : Option Block
  /-- The scope that name resolution attached. -/
  scope : Option Scope

/-- Declarations followed by statements. -/
structure Block where
  position : Position
  decls : List (Option Decl)
  body : Option Compound

end

end PascalCompiler
