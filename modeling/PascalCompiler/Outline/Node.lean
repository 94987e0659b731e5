import PascalCompiler.Outline.Basic
import PascalCompiler.Tree.Node

/-!
# Outlines of syntax trees

Every node is a record named for its kind, with its position first and its
members in a fixed order. A node that holds nothing has no outline; as an element
of a list it still counts.

## Main definitions

* `Outline.ofNode`: the outline of a node
* `Node.dump`: its text
-/

namespace PascalCompiler

namespace Kind

/-- The letters of a tag with every word after the first started by a capital
in place of the underscore; the first word too if `up` holds. -/
def capitalized : Bool → List Char → List Char
  | _, [] => []
  | _, '_' :: rest => capitalized true rest
  | true, c :: rest => c.toUpper :: capitalized false rest
  | false, c :: rest => c :: capitalized false rest

/-- The name of the records that show nodes of a kind. -/
def recordName (kind : Kind) : String :=
  let name := String.ofList (capitalized true kind.tag.toList)
  match kind with
  | .ifStatement | .tryExcept | .tryFinally => name ++ "Statement"
  | _ => name

/-- The type shown for list elements of a kind. -/
def elementType (kind : Kind) : String :=
  "*" ++ Outline.qualified kind.recordName

end Kind

namespace Outline

/-- The outline of a node that carries no scope. -/
def node (kind : Kind) (position : Position) (fields : List Field) : Option Outline :=
  record kind.recordName position false fields

/-- The element type of a list whose elements are of several kinds is the one of
its first element. -/
def firstType {α : Type} (kind : α → Kind) : List (Option α) → String
  | some first :: _ => (kind first).elementType
  | _ => "<nil>"

/-- The outline of a name. -/
def ofIdent (ident : Ident) : Option Outline :=
  node .identifier ident.position [.text "Value" ident.name]

/-- The field for a name. -/
def identField (label : String) (ident : Option Ident) : Field :=
  .part label ident (ident.bind ofIdent)

/-- The field for a list of names. -/
def identsField (label : String) (idents : List (Option Ident)) : Field :=
  .list label Kind.identifier.elementType (idents.map (·.bind ofIdent))

/-- The outline of a type. -/
def ofType : TypeRef → Option Outline
  | .inbuilt position name => node .inbuiltType position [.text "TypeName" name]
  | .named position name => node .typeIdentifier position [identField "TypeName" name]

/-- The field for a type. -/
def typeField (label : String) (type : Option TypeRef) : Field :=
  .part label type (type.bind ofType)

mutual

/-- The outline of an expression. -/
def ofExpr : Expr → Option Outline
  | .text position value => node .stringConstant position [.text "Value" value]
  | .control position code => node .controlString position [.number "Value" code]
  | .integer position value => node .integerConstant position [.number "Value" value]
  | .parens position inner => node .parens position [.part "Expression" inner (ofExpr? inner)]
  | .binary position op left right =>
    node .binaryOp position
      [.text "Op" op, .part "Left" left (ofExpr? left), .part "Right" right (ofExpr? right)]
  | .call position target args =>
    node .functionCall position
      [identField "Target" target, .list "Params" (firstType Expr.kind args) (ofExprs args)]
  | .setOf position elements =>
    node .setConstructor position
      [.list "List" (firstType Element.kind elements) (ofElements elements)]

/-- The outline of an expression that may be absent. -/
def ofExpr? : Option Expr → Option Outline
  | none => none
  | some e => ofExpr e

/-- The outlines of a list of expressions. -/
def ofExprs : List (Option Expr) → List (Option Outline)
  | [] => []
  | e :: rest => ofExpr? e :: ofExprs rest

/-- The outline of a range. -/
def ofRange : Range → Option Outline
  | ⟨position, start, stop⟩ =>
    node .range position [.part "Start" start (ofExpr? start), .part "End" stop (ofExpr? stop)]

/-- The outline of an element of a set constructor. -/
def ofElement : Element → Option Outline
  | .expr e => ofExpr e
  | .range r => ofRange r

/-- The outline of an element that may be absent. -/
def ofElement? : Option Element → Option Outline
  | none => none
  | some e => ofElement e

/-- The outlines of the elements of a set constructor. -/
def ofElements : List (Option Element) → List (Option Outline)
  | [] => []
  | e :: rest => ofElement? e :: ofElements rest

end

mutual

/-- The outline of a statement. -/
def ofStmt : Stmt → Option Outline
  | .assign position target op source =>
    node .assignment position
      [identField "Target" target, .text "Operator" op,
        .part "Expression" source (source.bind ofExpr)]
  | .call position target args =>
    node .procedureStatement position
      [identField "Target" target, .list "Params" (firstType Expr.kind args) (ofExprs args)]
  | .compound value => ofCompound value
  | .ifThen position condition onTrue onFalse =>
    node .ifStatement position
      [.part "Condition" condition (condition.bind ofExpr),
        .part "TrueBranch" onTrue (ofStmt? onTrue), .part "FalseBranch" onFalse (ofStmt? onFalse)]
  | .tryExcept position body handlers =>
    node .tryExcept position
      [.list "Body" (firstType Stmt.kind body) (ofStmts body),
        .part "Handlers" handlers (ofHandlers? handlers)]
  | .tryFinally position body cleanup =>
    node .tryFinally position
      [.list "Body" (firstType Stmt.kind body) (ofStmts body),
        .list "Fin" (firstType Stmt.kind cleanup) (ofStmts cleanup)]

/-- The outline of a compound statement. -/
def ofCompound : Compound → Option Outline
  | ⟨position, body⟩ =>
    node .compoundStatement position [.list "List" (firstType Stmt.kind body) (ofStmts body)]

/-- The outline of a statement that may be absent. -/
def ofStmt? : Option Stmt → Option Outline
  | none => none
  | some s => ofStmt s

/-- The outlines of a list of statements. -/
def ofStmts : List (Option Stmt) → List (Option Outline)
  | [] => []
  | s :: rest => ofStmt? s :: ofStmts rest

/-- The outline of what follows `except`. -/
def ofHandlers : Handlers → Option Outline
  | .all body => list (firstType Stmt.kind body) (ofStmts body)
  | .clause value => ofClause value

/-- The outline of what follows `except`, if anything does. -/
def ofHandlers? : Option Handlers → Option Outline
  | none => none
  | some h => ofHandlers h

/-- The outline of a clause for exceptions of one type. -/
def ofClause : HandlerClause → Option Outline
  | ⟨position, name, type, body⟩ =>
    node .exceptionHandlerClause position
      [identField "Identifier" name, typeField "ExceptionType" type,
        .part "Statement" body (ofStmt? body)]

end

/-- The outline of a variable declaration. -/
def ofVar (d : VarDecl) : Option Outline :=
  node .variableDeclaration d.position
    [identsField "Identifiers" d.names, typeField "VariableType" d.type,
      .part "Expression" d.value (d.value.bind ofExpr)]

/-- The outline of a constant declaration. -/
def ofConst (d : ConstDecl) : Option Outline :=
  node .constantDeclaration d.position
    [identField "Identifier" d.name, typeField "ConstantType" d.type,
      .part "Expression" d.value (d.value.bind ofExpr)]

/-- The outline of parameters declared with one type. -/
def ofParam (p : ParamGroup) : Option Outline :=
  node .valueParameter p.position
    [identsField "Identifiers" p.names, typeField "ParamType" p.type]

/-- The field for a parameter list. -/
def paramsField (params : List (Option ParamGroup)) : Field :=
  .list "Params" (firstType (fun _ => .valueParameter) params) (params.map (·.bind ofParam))

/-- The field for the result type of a function. -/
def resultFields : RoutineKind → List Field
  | .procedure => []
  | .function result => [typeField "ReturnType" result]

/-- The outline of a forward header. -/
def ofHeader (h : Header) : Option Outline :=
  node h.nodeKind h.position
    ([identField "Identifier" h.name, paramsField h.params] ++ resultFields h.kind)

mutual

/-- The outline of a declaration. -/
def ofDecl : Decl → Option Outline
  | .var d => ofVar d
  | .vars position list =>
    node .variableDeclarationPart position
      [.list "List" Kind.variableDeclaration.elementType (list.map (·.bind ofVar))]
  | .const d => ofConst d
  | .consts position list =>
    node .constantDeclarationPart position
      [.list "List" Kind.constantDeclaration.elementType (list.map (·.bind ofConst))]
  | .header h => ofHeader h
  | .routine r => ofRoutine r

/-- The outline of a routine. -/
def ofRoutine : Routine → Option Outline
  | ⟨position, kind, name, params, block, scope⟩ =>
    record (Routine.nodeKind ⟨position, kind, name, params, block, scope⟩).recordName position
      scope.isSome
      ([identField "Identifier" name, paramsField params] ++ resultFields kind ++
        [.part "Block" block (ofBlock? block)])

/-- The outline of a block. -/
def ofBlock : Block → Option Outline
  | ⟨position, decls, body⟩ =>
    node .block position
      [.list "Declarations" (firstType Decl.kind decls) (ofDecls decls),
        .part "Statements" body (body.bind ofCompound)]

/-- The outline of a block that may be absent. -/
def ofBlock? : Option Block → Option Outline
  | none => none
  | some b => ofBlock b

/-- The outline of a declaration that may be absent. -/
def ofDecl? : Option Decl → Option Outline
  | none => none
  | some d => ofDecl d

/-- The outlines of a list of declarations. -/
def ofDecls : List (Option Decl) → List (Option Outline)
  | [] => []
  | d :: rest => ofDecl? d :: ofDecls rest

end

/-- The outline of a comment. -/
def ofComment (c : Comment) : Option Outline :=
  node .comment c.position [.text "Content" c.content]

/-- The field for a comment. -/
def commentField (label : String) (comment : Option Comment) : Field :=
  .part label comment (comment.bind ofComment)

/-- The field for the comments of a program. -/
def commentsField (c : ProgramComments) : Field :=
  let fields := [commentField "Pre" c.pre, commentField "Uses" c.uses, commentField "End" c.final,
    commentField "Post" c.post]
  if fields.all (!·.present) then ⟨"Comments", false, none⟩
  else
    ⟨"Comments", true,
      some (.branch (qualified "ProgramComments" ++ "\x7b") (fields.filterMap Field.entry?))⟩

/-- The outline of the heading of a program or unit. -/
def ofHeading (kind : Kind) (h : Heading) : Option Outline :=
  node kind h.position [identField "Identifier" h.name]

/-- The outline of a uses clause. -/
def ofUses (u : UsesClause) : Option Outline :=
  node .usesClause u.position [identsField "List" u.units]

/-- The field for a uses clause. -/
def usesField (uses : Option UsesClause) : Field :=
  .part "Uses" uses (uses.bind ofUses)

/-- The outline of a part of a unit. -/
def ofUnitPart (kind : Kind) (p : UnitPart) : Option Outline :=
  node kind p.position
    [usesField p.uses, .list "Declarations" (firstType Decl.kind p.decls) (ofDecls p.decls)]

/-- The outline of a program. -/
def ofProgram (f : ProgramFile) : Option Outline :=
  record Kind.program.recordName f.position f.scope.isSome
    [.part "Header" f.heading (f.heading.bind (ofHeading .programHeader)), usesField f.uses,
      .part "Body" f.block (f.block.bind ofBlock), commentsField f.comments]

/-- The outline of a unit. -/
def ofUnit (f : UnitFile) : Option Outline :=
  record Kind.unit.recordName f.position f.scope.isSome
    [.part "Header" f.heading (f.heading.bind (ofHeading .unitHeader)),
      .part "Interface" f.interfacePart (f.interfacePart.bind (ofUnitPart .interfacePart)),
      .part "Implementation" f.implementationPart
        (f.implementationPart.bind (ofUnitPart .implementationPart))]

/-- The outline of a node. -/
def ofNode : Node → Option Outline
  | .program value => ofProgram value
  | .unit value => ofUnit value
  | .programHeader value => ofHeading .programHeader value
  | .unitHeader value => ofHeading .unitHeader value
  | .interfacePart value => ofUnitPart .interfacePart value
  | .implementationPart value => ofUnitPart .implementationPart value
  | .uses value => ofUses value
  | .comment value => ofComment value
  | .ident value => ofIdent value
  | .type value => ofType value
  | .param value => ofParam value
  | .block value => ofBlock value
  | .decl value => ofDecl value
  | .stmt value => ofStmt value
  | .handler value => ofClause value
  | .expr value => ofExpr value
  | .range value => ofRange value

end Outline

namespace Node

/-- The text that shows a node. -/
def dump (node : Node) : String :=
  ((Outline.ofNode node).map Outline.render).getD ""

/-- The text that shows a node that may be absent. -/
def dump? (node : Option Node) : String :=
  (node.map dump).getD "<nil>"

end Node

end PascalCompiler
