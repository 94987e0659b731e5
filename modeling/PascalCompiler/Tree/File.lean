import PascalCompiler.Tree.Decl

/-!
# Files

A source file is a program or a unit. Like a routine, it carries the scope that
name resolution attached to it.

## Main definitions

* `ProgramFile`, `UnitFile`: the two forms of source files
* `File`: either of them
-/

namespace PascalCompiler

/-- A comment kept from the source. -/
structure Comment where
  position : Position := .unknown
  content : String := ""
  deriving DecidableEq

/-- The first line of a file, which names it. -/
structure Heading where
  position : Position := .unknown
  name : Option Ident := none
  deriving DecidableEq

/-- The units that a file uses. -/
structure UsesClause where
  position : Position := .unknown
  units : List (Option Ident) := []
  deriving DecidableEq

/-- The comments around the sections of a program. -/
structure ProgramComments where
  pre : Option Comment := none
  uses : Option Comment := none
  final : Option Comment := none
  post : Option Comment := none
  deriving DecidableEq

/-- A program. -/
structure ProgramFile where
  position : Position := .unknown
  heading : Option Heading := none
  uses : Option UsesClause := none
  block : Option Block := none
  comments : ProgramComments := {}
  /-- The scope that name resolution attached. -/
  scope : Option Scope := none

/-- The interface or implementation part of a unit. -/
structure UnitPart where
  position : Position := .unknown
  uses : Option UsesClause := none
  decls : List (Option Decl) := []

/-- A unit. -/
structure UnitFile where
  position : Position := .unknown
  heading : Option Heading := none
  interfacePart : Option UnitPart := none
  implementationPart : Option UnitPart := none
  /-- The scope that name resolution attached. -/
  scope : Option Scope := none

/-- A source file. -/
inductive File where
  | program (value : ProgramFile)
  | unit (value : UnitFile)

namespace UnitFile

/-- The declarations of a unit, those of the interface first. -/
def decls (file : UnitFile) : List (Option Decl) :=
  let part (p : Option UnitPart) := (p.map UnitPart.decls).getD []
  part file.interfacePart ++ part file.implementationPart

end UnitFile

namespace ProgramFile

/-- The declarations of a program. -/
def decls (file : ProgramFile) : List (Option Decl) :=
  (file.block.map Block.decls).getD []

end ProgramFile

namespace File

/-- The declarations at the level of the file. -/
def decls : File → List (Option Decl)
  | .program file => file.decls
  | .unit file => file.decls

/-- The scope attached to a file. -/
def scope : File → Option Scope
  | .program file => file.scope
  | .unit file => file.scope

end File

end PascalCompiler
