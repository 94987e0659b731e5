import PascalCompiler.Text.Numeral

/-!
# Kinds of nodes

Every node of a syntax tree has a kind, and every kind a tag by which documents
and messages name it. Kinds are numbered in the alphabetical order of their
tags, from one; number zero is the kind of no node.

## Main definitions

* `Kind`: the kinds, and the numbers that belong to none
* `Kind.tag`, `Kind.ofTag?`: the tag of a kind and the kind of a tag
* `Kind.ofNumber`, `Kind.number`: the numbering
-/

namespace PascalCompiler

/-- The kind of a node. -/
inductive Kind where
  /-- The kind of no node. -/
  | invalid
  | assignment
  | binaryOp
  | block
  | comment
  | compoundStatement
  | constantDeclaration
  | constantDeclarationPart
  | controlString
  | exceptionHandlerClause
  | functionCall
  | functionDeclaration
  | functionHeader
  | identifier
  | ifStatement
  | implementationPart
  | inbuiltType
  | integerConstant
  | interfacePart
  | parens
  | procedureDeclaration
  | procedureHeader
  | procedureStatement
  | program
  | programHeader
  | range
  | setConstructor
  | stringConstant
  | tryExcept
  | tryFinally
  | typeIdentifier
  | unit
  | unitHeader
  | usesClause
  | valueParameter
  | variableDeclaration
  | variableDeclarationPart
  /-- A number that belongs to no kind. -/
  | other (number : Int)
  deriving DecidableEq

namespace Kind

/-- The kinds of nodes, in the order of their numbers. -/
def all : List Kind :=
  [
    .assignment, .binaryOp, .block, .comment, .compoundStatement, .constantDeclaration,
    .constantDeclarationPart, .controlString, .exceptionHandlerClause, .functionCall,
    .functionDeclaration, .functionHeader, .identifier, .ifStatement, .implementationPart,
    .inbuiltType, .integerConstant, .interfacePart, .parens, .procedureDeclaration,
    .procedureHeader, .procedureStatement, .program, .programHeader, .range, .setConstructor,
    .stringConstant, .tryExcept, .tryFinally, .typeIdentifier, .unit, .unitHeader, .usesClause,
    .valueParameter, .variableDeclaration, .variableDeclarationPart
  ]

/-- The tag of a kind. -/
def tag : Kind → String
  | .invalid => "invalid"
  | .assignment => "assignment"
  | .binaryOp => "binary_op"
  | .block => "block"
  | .comment => "comment"
  | .compoundStatement => "compound_statement"
  | .constantDeclaration => "constant_declaration"
  | .constantDeclarationPart => "constant_declaration_part"
  | .controlString => "control_string"
  | .exceptionHandlerClause => "exception_handler_clause"
  | .functionCall => "function_call"
  | .functionDeclaration => "function_declaration"
  | .functionHeader => "function_header"
  | .identifier => "identifier"
  | .ifStatement => "if"
  | .implementationPart => "implementation_part"
  | .inbuiltType => "inbuilt_type"
  | .integerConstant => "integer_constant"
  | .interfacePart => "interface_part"
  | .parens => "parens"
  | .procedureDeclaration => "procedure_declaration"
  | .procedureHeader => "procedure_header"
  | .procedureStatement => "procedure_statement"
  | .program => "program"
  | .programHeader => "program_header"
  | .range => "range"
  | .setConstructor => "set_constructor"
  | .stringConstant => "string_constant"
  | .tryExcept => "try_except"
  | .tryFinally => "try_finally"
  | .typeIdentifier => "type_identifier"
  | .unit => "unit"
  | .unitHeader => "unit_header"
  | .usesClause => "uses_clause"
  | .valueParameter => "value_parameter"
  | .variableDeclaration => "variable_declaration"
  | .variableDeclarationPart => "variable_declaration_part"
  | .other number => "Kind(" ++ Numeral.decimal number ++ ")"

/-- The kind of node with the given tag. -/
def ofTag? (tag : String) : Option Kind :=
  all.find? (·.tag = tag)

/-- The kind with the given number. -/
def ofNumber (number : Int) : Kind :=
  if number = 0 then .invalid
  else if number < 0 then .other number
  else (all[number.toNat - 1]?).getD (.other number)

/-- The number of a kind. -/
def number : Kind → Int
  | .invalid => 0
  | .other number => number
  | kind => all.idxOf kind + 1

end Kind

end PascalCompiler
