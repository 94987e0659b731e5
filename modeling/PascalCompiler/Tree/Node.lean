import PascalCompiler.Tree.File
import PascalCompiler.Tree.Kind

/-!
# Nodes

A node is any part of a syntax tree that has a kind and a position of its own.

## Main definitions

* `Node`: the parts of a tree
* `Node.kind`, `Node.position`: what and where a node is
* `Node.scope`: the scope attached to a file or routine
-/

namespace PascalCompiler

/-- A part of a syntax tree. -/
inductive Node where
  | program (value : ProgramFile)
  | unit (value : UnitFile)
  | programHeader (value : Heading)
  | unitHeader (value : Heading)
  | interfacePart (value : UnitPart)
  | implementationPart (value : UnitPart)
  | uses (value : UsesClause)
  | comment (value : Comment)
  | ident (value : Ident)
  | type (value : TypeRef)
  | param (value : ParamGroup)
  | block (value : Block)
  | decl (value : Decl)
  | stmt (value : Stmt)
  | handler (value : HandlerClause)
  | expr (value : Expr)
  | range (value : Range)

namespace TypeRef

/-- The kind of a type. -/
def kind : TypeRef → Kind
  | .inbuilt .. => .inbuiltType
  | .named .. => .typeIdentifier

end TypeRef

namespace Expr

/-- The kind of an expression. -/
def kind : Expr → Kind
  | .text .. => .stringConstant
  | .control .. => .controlString
  | .integer .. => .integerConstant
  | .parens .. => .parens
  | .binary .. => .binaryOp
  | .call .. => .functionCall
  | .setOf .. => .setConstructor

/-- Where an expression was found. -/
def position : Expr → Position
  | .text position .. | .control position .. | .integer position .. | .parens position ..
  | .binary position .. | .call position .. | .setOf position .. => position

end Expr

namespace Element

/-- The kind of an element of a set constructor. -/
def kind : Element → Kind
  | .expr value => value.kind
  | .range _ => .range

end Element

namespace Stmt

/-- The kind of a statement. -/
def kind : Stmt → Kind
  | .assign .. => .assignment
  | .call .. => .procedureStatement
  | .compound .. => .compoundStatement
  | .ifThen .. => .ifStatement
  | .tryExcept .. => .tryExcept
  | .tryFinally .. => .tryFinally

/-- Where a statement was found. -/
def position : Stmt → Position
  | .assign position .. | .call position .. | .ifThen position .. | .tryExcept position ..
  | .tryFinally position .. => position
  | .compound value => value.position

end Stmt

namespace Header

/-- The kind of a forward header as a node. -/
def nodeKind (header : Header) : Kind :=
  match header.kind with
  | .procedure => .procedureHeader
  | .function _ => .functionHeader

end Header

namespace Routine

/-- The kind of a routine as a node. -/
def nodeKind (routine : Routine) : Kind :=
  match routine.kind with
  | .procedure => .procedureDeclaration
  | .function _ => .functionDeclaration

end Routine

namespace Decl

/-- The kind of a declaration. -/
def kind : Decl → Kind
  | .var _ => .variableDeclaration
  | .vars .. => .variableDeclarationPart
  | .const _ => .constantDeclaration
  | .consts .. => .constantDeclarationPart
  | .header value => value.nodeKind
  | .routine value => value.nodeKind

/-- Where a declaration was found. -/
def position : Decl → Position
  | .var value => value.position
  | .const value => value.position
  | .vars position _ | .consts position _ => position
  | .header value => value.position
  | .routine value => value.position

end Decl

namespace File

/-- A file as a node. -/
def node : File → Node
  | .program file => .program file
  | .unit file => .unit file

end File

namespace Node

/-- The kind of a node. -/
def kind : Node → Kind
  | .program _ => .program
  | .unit _ => .unit
  | .programHeader _ => .programHeader
  | .unitHeader _ => .unitHeader
  | .interfacePart _ => .interfacePart
  | .implementationPart _ => .implementationPart
  | .uses _ => .usesClause
  | .comment _ => .comment
  | .ident _ => .identifier
  | .type value => value.kind
  | .param _ => .valueParameter
  | .block _ => .block
  | .decl value => value.kind
  | .stmt value => value.kind
  | .handler _ => .exceptionHandlerClause
  | .expr value => value.kind
  | .range _ => .range

/-- Where a node was found. -/
def position : Node → Position
  | .program value => value.position
  | .unit value => value.position
  | .programHeader value | .unitHeader value => value.position
  | .interfacePart value | .implementationPart value => value.position
  | .uses value => value.position
  | .comment value => value.position
  | .ident value => value.position
  | .type value => value.position
  | .param value => value.position
  | .block value => value.position
  | .decl value => value.position
  | .stmt value => value.position
  | .handler value => value.position
  | .expr value => value.position
  | .range value => value.position

/-- The scope attached to a node. Only files and routines carry one. -/
def scope : Node → Option Scope
  | .program file => file.scope
  | .unit file => file.scope
  | .decl (.routine routine) => routine.scope
  | _ => none

/-- A node with another scope attached, if it can carry one. -/
def attach (scope : Scope) : Node → Node
  | .program file => .program { file with scope := some scope }
  | .unit file => .unit { file with scope := some scope }
  | .decl (.routine routine) => .decl (.routine { routine with scope := some scope })
  | node => node

end Node

end PascalCompiler
