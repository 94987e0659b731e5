import PascalCompiler.Document.Reading

/-!
# Reading nodes

A node is spelled by an object: its member `type` is the tag of the node's kind,
`location` says where the node was found, and the other members are the parts of
the node. A value is read from the bottom up: when an object is read, the views
of its members are there already.

## Main definitions

* `Document.Source`: the name and text of a document
* `Document.readKind`: the node of a given kind that an object spells
* `Document.view`: the view of a JSON value
-/

namespace PascalCompiler

namespace Node

/-- The node as an identifier. -/
def asIdent? : Node → Option Ident
  | .ident value => some value
  | _ => none

/-- The node as a type. -/
def asType? : Node → Option TypeRef
  | .type value => some value
  | _ => none

/-- The node as a declaration. -/
def asDecl? : Node → Option Decl
  | .decl value => some value
  | _ => none

/-- The node as a variable declaration. -/
def asVar? : Node → Option VarDecl
  | .decl (.var value) => some value
  | _ => none

/-- The node as a constant declaration. -/
def asConst? : Node → Option ConstDecl
  | .decl (.const value) => some value
  | _ => none

/-- The node as parameters declared with one type. -/
def asParam? : Node → Option ParamGroup
  | .param value => some value
  | _ => none

/-- The node as a statement. -/
def asStmt? : Node → Option Stmt
  | .stmt value => some value
  | _ => none

/-- The node as a compound statement. -/
def asCompound? : Node → Option Compound
  | .stmt (.compound value) => some value
  | _ => none

/-- The node as an exception handler clause. -/
def asClause? : Node → Option HandlerClause
  | .handler value => some value
  | _ => none

/-- The node as an expression. -/
def asExpr? : Node → Option Expr
  | .expr value => some value
  | _ => none

/-- The node as an element of a set constructor. -/
def asElement? : Node → Option Element
  | .expr value => some (.expr value)
  | .range value => some (.range value)
  | _ => none

/-- The node as a block. -/
def asBlock? : Node → Option Block
  | .block value => some value
  | _ => none

/-- The node as a comment. -/
def asComment? : Node → Option Comment
  | .comment value => some value
  | _ => none

/-- The node as a uses clause. -/
def asUses? : Node → Option UsesClause
  | .uses value => some value
  | _ => none

/-- The node as the heading of a program. -/
def asProgramHeader? : Node → Option Heading
  | .programHeader value => some value
  | _ => none

/-- The node as the heading of a unit. -/
def asUnitHeader? : Node → Option Heading
  | .unitHeader value => some value
  | _ => none

/-- The node as the interface part of a unit. -/
def asInterface? : Node → Option UnitPart
  | .interfacePart value => some value
  | _ => none

/-- The node as the implementation part of a unit. -/
def asImplementation? : Node → Option UnitPart
  | .implementationPart value => some value
  | _ => none

end Node

namespace Document

/-- The name and text of a document. -/
structure Source where
  name : String
  text : Bytes

namespace Object

/-- An identifier that may be absent. -/
def ident? (object : Object) (name : String) : Reading (Option Ident) :=
  object.optional name [] (.kind .identifier) Node.asIdent?

/-- An identifier that must be there. -/
def ident (object : Object) (name : String) : Reading (Option Ident) :=
  object.mandatory name [] name (.kind .identifier) Node.asIdent?

/-- A list of identifiers. -/
def idents (object : Object) (name : String) : Reading (List (Option Ident)) := do
  return (← object.list name (some "identifier") (.kind .identifier) Node.asIdent?).map some

/-- What an assignment or call is directed to. -/
def target (object : Object) (aliases : List String) : Reading (Option Ident) :=
  object.mandatory "target" aliases "target" (.kind .identifier) Node.asIdent?

/-- A type that may be absent. -/
def type? (object : Object) (name : String) : Reading (Option TypeRef) :=
  object.optional name [] .type Node.asType?

/-- An expression that may be absent. -/
def expr? (object : Object) (name : String) : Reading (Option Expr) :=
  object.optional name [] .expression Node.asExpr?

/-- An expression that must be there. -/
def expr (object : Object) (name : String) : Reading (Option Expr) :=
  object.mandatory name [] name .expression Node.asExpr?

/-- The arguments of a call. -/
def args (object : Object) : Reading (List (Option Expr)) := do
  return (← object.list "params" (some "expression") .expression Node.asExpr?).map some

/-- A statement that may be absent. -/
def stmt? (object : Object) (name : String) : Reading (Option Stmt) :=
  object.optional name [] .statement Node.asStmt?

/-- A list of statements. Null stands for an empty statement and is left out. -/
def stmts (object : Object) (name : String) : Reading (List (Option Stmt)) := do
  return (← object.list name none .statement Node.asStmt?).map some

/-- A list of declarations. -/
def decls (object : Object) : Reading (List (Option Decl)) := do
  return (← object.list "declarations" (some "declaration") .declaration Node.asDecl?).map some

/-- A parameter list. -/
def params (object : Object) : Reading (List (Option ParamGroup)) := do
  return (← object.list "params" (some "parameter declaration") (.kind .valueParameter)
    Node.asParam?).map some

/-- A block that may be absent. -/
def block? (object : Object) (name : String) : Reading (Option Block) :=
  object.optional name [] (.kind .block) Node.asBlock?

/-- A uses clause that may be absent. -/
def uses? (object : Object) : Reading (Option UsesClause) :=
  object.optional "uses" [] (.kind .usesClause) Node.asUses?

/-- A comment that may be absent. -/
def comment? (object : Object) (name : String) : Reading (Option Comment) :=
  object.optional name [] (.kind .comment) Node.asComment?

/-- The statements of a block, which are missed whenever none can be read. -/
def statements (object : Object) : Reading (Option Compound) := do
  let slot := object.slot "statements" []
  let node ← slot.node
  if node.isNone then
    object.report slot.path (.missing "statements")
  cast (.kind .compoundStatement) Node.asCompound? slot.path node

/-- What follows `except`: a list of statements or one clause. -/
def handlers? (object : Object) : Reading (Option Handlers) := do
  let slot := object.slot "handlers" []
  match slot.view? with
  | none => return none
  | some view =>
    match view.json with
    | .array .. =>
      let list ← castItems object slot.path none .statement Node.asStmt? 0 view.items
      return some (.all (list.map some))
    | _ =>
      let clause ←
        cast (.kind .exceptionHandlerClause) Node.asClause? slot.path (← view.node slot.path)
      return clause.map .clause

/-- The comments of a program. -/
def comments (object : Object) : Reading ProgramComments := do
  let slot := object.slot "comments" []
  match slot.view? with
  | none => return {}
  | some view =>
    match view.json with
    | .object .. =>
      let inner : Object := ⟨view.members, slot.path, object.position⟩
      let pre ← inner.comment? "pre"
      let uses ← inner.comment? "uses"
      let final ← inner.comment? "end"
      let post ← inner.comment? "post"
      return ⟨pre, uses, final, post⟩
    | json =>
      object.report slot.path (.shape .object json.typeWord)
      return {}

end Object

/-- The program that an object spells. Its body is missed whenever none can be
read. -/
def readProgram (object : Object) : Reading ProgramFile := do
  let uses ← object.uses?
  let heading ← object.optional "header" [] (.kind .programHeader) Node.asProgramHeader?
  let block ← object.block? "body"
  if block.isNone then
    object.report (object.path.member "body") (.missing "body")
  let comments ← object.comments
  return ⟨object.position, heading, uses, block, comments, none⟩

/-- The unit that an object spells. -/
def readUnit (object : Object) : Reading UnitFile := do
  let heading ← object.optional "header" [] (.kind .unitHeader) Node.asUnitHeader?
  let interfacePart ←
    object.optional "interface" ["interfacePart"] (.kind .interfacePart) Node.asInterface?
  let implementationPart ←
    object.optional "implementation" ["implementationPart"] (.kind .implementationPart)
      Node.asImplementation?
  return ⟨object.position, heading, interfacePart, implementationPart, none⟩

/-- The part of a unit that an object spells. -/
def readUnitPart (object : Object) : Reading UnitPart := do
  let uses ← object.uses?
  let decls ← object.decls
  return ⟨object.position, uses, decls⟩

/-- The variable declaration that an object spells. -/
def readVar (object : Object) : Reading VarDecl := do
  let names ← object.idents "identifiers"
  let type ← object.type? "variableType"
  let value ← object.expr? "expression"
  if names.isEmpty then
    object.report (object.path.member "identifiers") .noVariables
  return ⟨object.position, names, type, value⟩

/-- The constant declaration that an object spells. -/
def readConst (object : Object) : Reading ConstDecl := do
  let name ← object.ident "identifier"
  let type ← object.type? "constantType"
  let value ← object.expr "expression"
  return ⟨object.position, name, type, value⟩

/-- The result type of a function, or nothing for a procedure. -/
def readRoutineKind (object : Object) (isFunction : Bool) : Reading RoutineKind := do
  if isFunction then
    return .function (← object.type? "returnType")
  else
    return .procedure

/-- The forward header that an object spells. -/
def readHeader (object : Object) (isFunction : Bool) : Reading Header := do
  let name ← object.ident "identifier"
  let params ← object.params
  let kind ← readRoutineKind object isFunction
  return ⟨object.position, kind, name, params⟩

/-- The routine that an object spells. -/
def readRoutine (object : Object) (isFunction : Bool) : Reading Routine := do
  let name ← object.ident "identifier"
  let params ← object.params
  let kind ← readRoutineKind object isFunction
  let block ← object.block? "block"
  return ⟨object.position, kind, name, params, block, none⟩

/-- The expression of a given kind that an object spells. -/
def readExpr (source : Source) (object : Object) : Kind → Reading (Option Expr)
  | .stringConstant => do
    return some (.text object.position (← object.text "value" [] false))
  | .controlString => do
    return some (.control object.position (← object.integer source.text "value"))
  | .integerConstant => do
    return some (.integer object.position (← object.integer source.text "value"))
  | .parens => do
    return some (.parens object.position (← object.expr "expression"))
  | .binaryOp => do
    let op ← object.text "op" ["operator"] true
    let left ← object.expr "left"
    let right ← object.expr "right"
    return some (.binary object.position op left right)
  | .functionCall => do
    let target ← object.target []
    let args ← object.args
    return some (.call object.position target args)
  | .setConstructor => do
    let elements ← object.list "list" none .setElement Node.asElement?
    return some (.setOf object.position (elements.map some))
  | _ => pure none

/-- The statement of a given kind that an object spells. -/
def readStmt (object : Object) : Kind → Reading (Option Stmt)
  | .assignment => do
    let target ← object.target ["identifier"]
    let op ← object.text "operator" [] true
    let source ← object.expr "expression"
    return some (.assign object.position target op source)
  | .procedureStatement => do
    let target ← object.target []
    let args ← object.args
    return some (.call object.position target args)
  | .compoundStatement => do
    return some (.compound ⟨object.position, ← object.stmts "list"⟩)
  | .ifStatement => do
    let condition ← object.expr "condition"
    let onTrue ← object.stmt? "trueBranch"
    let onFalse ← object.stmt? "falseBranch"
    return some (.ifThen object.position condition onTrue onFalse)
  | .tryExcept => do
    let body ← object.stmts "body"
    let handlers ← object.handlers?
    return some (.tryExcept object.position body handlers)
  | .tryFinally => do
    let body ← object.stmts "body"
    let cleanup ← object.stmts "fin"
    return some (.tryFinally object.position body cleanup)
  | _ => pure none

/-- The declaration of a given kind that an object spells. -/
def readDecl (object : Object) : Kind → Reading (Option Decl)
  | .variableDeclaration => do
    return some (.var (← readVar object))
  | .variableDeclarationPart => do
    let list ← object.list "list" none (.kind .variableDeclaration) Node.asVar?
    return some (.vars object.position (list.map some))
  | .constantDeclaration => do
    return some (.const (← readConst object))
  | .constantDeclarationPart => do
    let list ← object.list "list" none (.kind .constantDeclaration) Node.asConst?
    return some (.consts object.position (list.map some))
  | .procedureHeader => do
    return some (.header (← readHeader object false))
  | .functionHeader => do
    return some (.header (← readHeader object true))
  | .procedureDeclaration => do
    return some (.routine (← readRoutine object false))
  | .functionDeclaration => do
    return some (.routine (← readRoutine object true))
  | _ => pure none

/-- The node of a given kind that an object spells. -/
def readKind (source : Source) (object : Object) (kind : Kind) : Reading (Option Node) :=
  match kind with
  | .program => do
    return some (.program (← readProgram object))
  | .unit => do
    return some (.unit (← readUnit object))
  | .programHeader => do
    return some (.programHeader ⟨object.position, ← object.ident? "identifier"⟩)
  | .unitHeader => do
    return some (.unitHeader ⟨object.position, ← object.ident? "identifier"⟩)
  | .interfacePart => do
    return some (.interfacePart (← readUnitPart object))
  | .implementationPart => do
    return some (.implementationPart (← readUnitPart object))
  | .usesClause => do
    return some (.uses ⟨object.position, ← object.idents "list"⟩)
  | .comment => do
    return some (.comment ⟨object.position, ← object.text "content" [] false⟩)
  | .identifier => do
    return some (.ident ⟨object.position, ← object.text "value" [] true⟩)
  | .inbuiltType => do
    return some (.type (.inbuilt object.position (← object.text "typeName" [] true)))
  | .typeIdentifier => do
    return some (.type (.named object.position (← object.ident "typeName")))
  | .valueParameter => do
    let names ← object.idents "identifiers"
    let type ← object.type? "paramType"
    return some (.param ⟨object.position, names, type⟩)
  | .block => do
    let decls ← object.decls
    let body ← object.statements
    return some (.block ⟨object.position, decls, body⟩)
  | .exceptionHandlerClause => do
    let name ← object.ident? "identifier"
    let type ← object.type? "exceptionType"
    let body ← object.stmt? "statement"
    return some (.handler ⟨object.position, name, type, body⟩)
  | .range => do
    let start ← object.expr "start"
    let stop ← object.expr "end"
    return some (.range ⟨object.position, start, stop⟩)
  | .assignment | .procedureStatement | .compoundStatement | .ifStatement | .tryExcept
  | .tryFinally => do
    return (← readStmt object kind).map .stmt
  | .stringConstant | .controlString | .integerConstant | .parens | .binaryOp | .functionCall
  | .setConstructor => do
    return (← readExpr source object kind).map .expr
  | .variableDeclaration | .variableDeclarationPart | .constantDeclaration
  | .constantDeclarationPart | .procedureHeader | .functionHeader | .procedureDeclaration
  | .functionDeclaration => do
    return (← readDecl object kind).map .decl
  | .invalid | .other _ => pure none

/-- The position that an object gives in its member `location`. -/
def readPosition (source : Source) (members : List (String × View)) (path : Path) :
    Reading Position :=
  match (lookupLast "location" members).filter (!·.json.isNull) with
  | none => pure .unknown
  | some view =>
    match Coordinates.ofJson view.json with
    | .ok start => pure ⟨source.name, start.offset, start.line, start.column⟩
    | .error fault => do
      Reading.report .unknown (path.member "location") (.location fault)
      return .unknown

/-- The tag that an object gives in its member `type`. Null is the empty tag. -/
def tag? (members : List (String × View)) : Option String :=
  match lookupLast "type" members with
  | none => none
  | some view =>
    match view.json with
    | .string _ value => some value
    | .null => some ""
    | _ => none

/-- The node that an object with the given members spells. -/
def readObject (source : Source) (members : List (String × View)) (path : Path) :
    Reading (Option Node) := do
  let position ← readPosition source members path
  match tag? members with
  | none =>
    Reading.report position path .noTag
    return none
  | some tag =>
    match Kind.ofTag? tag with
    | none =>
      Reading.report position (path.member "type") (.unknownTag tag)
      return none
    | some kind => readKind source ⟨members, path, position⟩ kind

/-- The reading of a value that is no object as a node. Null spells none. -/
def readOther (json : Json) (path : Path) : Reading (Option Node) :=
  if json.isNull then pure none
  else do
    Reading.report .unknown path (.shape .object json.typeWord)
    return none

mutual

/-- The view of a JSON value. -/
def view (source : Source) : Json → View
  | .object span members =>
    let views := viewMembers source members
    ⟨.object span members, readObject source views, [], views⟩
  | .array span items =>
    ⟨.array span items, readOther (.array span items), viewItems source items, []⟩
  | .null => ⟨.null, readOther .null, [], []⟩
  | .bool value => ⟨.bool value, readOther (.bool value), [], []⟩
  | .number literal => ⟨.number literal, readOther (.number literal), [], []⟩
  | .string span value => ⟨.string span value, readOther (.string span value), [], []⟩

/-- The views of the items of an array. -/
def viewItems (source : Source) : List Json → List View
  | [] => []
  | item :: rest => view source item :: viewItems source rest

/-- The views of the members of an object. -/
def viewMembers (source : Source) : List (String × Json) → List (String × View)
  | [] => []
  | (name, value) :: rest => (name, view source value) :: viewMembers source rest

end

end Document

end PascalCompiler
