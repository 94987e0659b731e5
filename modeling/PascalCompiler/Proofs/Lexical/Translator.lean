import PascalCompiler.Script.Literal
import PascalCompiler.Script.Name
import PascalCompiler.Tree.File

/-!
# Translation by lexical scoping

A translator that follows the syntax and nothing else. No scope is attached to
a tree and no path of visited nodes is kept: the names that are visible come in
as a list of levels, the innermost first, and each level is complete before
anything inside it is translated. Whether braces are written is told from
outside, by one flag for blocks and one for compound statements.

The translator gives the text of a script or nothing. It says what compiling a
file is meant to produce.

## Main definitions

* `Lexical.Level`, `Lexical.find?`: the names of a level and what they denote
* `Lexical.levelOf`: the level that parameters and declarations make up
* `Lexical.expr`, `Lexical.stmt`, `Lexical.decl`: the text of a part of a tree
* `Lexical.translate`: the text of a file
-/

namespace PascalCompiler.Lexical

/-! ### Levels -/

/-- The names of a level in lower case, with what they denote, in source order. -/
abbrev Level := List (String × NameKind)

/-- What the nearest level that has the key says of it. Within a level the last
declaration counts. -/
def find? (levels : List Level) (key : String) : Option NameKind :=
  levels.findSome? fun level => level.reverse.lookup key

/-- Is a name without arguments a constant or variable that is read? -/
def isRead (levels : List Level) (name : String) : Bool :=
  let kind := find? levels (Lowercase.lowerText name)
  kind = some .constant || kind = some .var

/-- The name of an identifier that is there and has one. -/
def nameOf (ident : Option Ident) : Option String :=
  (ident.map Ident.name).filter (· ≠ "")

/-- The entries of identifiers that denote the same kind of thing. -/
def entries (kind : NameKind) (idents : List (Option Ident)) : Level :=
  (idents.filterMap nameOf).map fun name => (Lowercase.lowerText name, kind)

/-- What the name of a routine denotes. -/
def routineEntry (kind : RoutineKind) (name : Option Ident) : Level :=
  match kind with
  | .procedure => entries .procedure [name]
  | .function _ => entries .function [name]

/-- A declaration, or the declarations that a part lists. -/
def flatten : Option Decl → List Decl
  | none => []
  | some (.vars _ list) => list.reduceOption.map .var
  | some (.consts _ list) => list.reduceOption.map .const
  | some d => [d]

/-- The entries of a declaration that is not a part. -/
def declEntries : Decl → Level
  | .var d => entries .var d.names
  | .const d => entries .constant [d.name]
  | .header h => routineEntry h.kind h.name
  | .routine r => routineEntry r.kind r.name
  | .vars .. | .consts .. => []

/-- The level of parameters and the declarations behind them. -/
def levelOf (params : List (Option ParamGroup)) (decls : List (Option Decl)) : Level :=
  (params.reduceOption.flatMap fun group => entries .var group.names) ++
    (decls.flatMap flatten).flatMap declEntries

/-! ### Expressions -/

/-- Texts with commas between them. -/
def commas : List String → String
  | [] => ""
  | [text] => text
  | text :: rest => text ++ "," ++ commas rest

/-- The text of an identifier. -/
def ident (identifier : Option Ident) : Option String :=
  (nameOf identifier).map Script.identifier

/-- The texts of a list of identifiers. -/
def idents : List (Option Ident) → Option (List String)
  | [] => some []
  | first :: rest => do
    let name ← ident first
    let names ← idents rest
    return name :: names

/-- The sign that stands for an operator in any case. -/
def operator (op : String) : Option String :=
  [("+", "+"), ("=", "==="), ("<>", "!=="), ("and", "&&")].lookup (Lowercase.lowerText op)

mutual

/-- The text of an expression where the given levels are visible. -/
def expr (levels : List Level) : Expr → Option String
  | .text _ value => some (Script.quote value)
  | .control _ code =>
    if 0 ≤ code ∧ code ≤ 0x10FFFF then some (Script.codeLiteral code.toNat) else none
  | .integer _ value => some (Numeral.decimal value)
  | .parens _ inner => do
    let text ← expr? levels inner
    return "(" ++ text ++ ")"
  | .binary _ op left right => do
    let sign ← operator op
    let left ← expr? levels left
    let right ← expr? levels right
    return left ++ sign ++ right
  | .call _ target args => do
    let name ← nameOf target
    let texts ← exprs levels args
    return Script.identifier name ++
      if args.isEmpty && isRead levels name then "" else "(" ++ commas texts ++ ")"
  | .setOf _ elements => do
    let texts ← setElements levels elements
    return "[" ++ commas texts ++ "]"

/-- The text of an expression that must be there. -/
def expr? (levels : List Level) : Option Expr → Option String
  | none => none
  | some e => expr levels e

/-- The texts of a list of expressions. -/
def exprs (levels : List Level) : List (Option Expr) → Option (List String)
  | [] => some []
  | e :: rest => do
    let text ← expr? levels e
    let texts ← exprs levels rest
    return text :: texts

/-- The text of an element of a set constructor. -/
def setElement (levels : List Level) : Option Element → Option String
  | none => none
  | some (.range _) => none
  | some (.expr e) => expr levels e

/-- The texts of the elements of a set constructor. -/
def setElements (levels : List Level) : List (Option Element) → Option (List String)
  | [] => some []
  | e :: rest => do
    let text ← setElement levels e
    let texts ← setElements levels rest
    return text :: texts

end

/-! ### Statements -/

/-- A text, in braces or not. -/
def inBraces (braces : Bool) (text : String) : String :=
  if braces then "\x7b" ++ text ++ "\x7d" else text

mutual

/-- The text of a statement where the given levels are visible. -/
def stmt (levels : List Level) : Stmt → Option String
  | .assign _ target op source =>
    if op = ":=" then do
      let name ← ident target
      let value ← expr? levels source
      return name ++ "=" ++ value ++ ";"
    else none
  | .call _ target args => do
    let name ← nameOf target
    let texts ← exprs levels args
    return Script.identifier name ++ "(" ++ commas texts ++ ");"
  | .compound value => compound levels false value
  | .ifThen _ condition onTrue onFalse => do
    let condition ← expr? levels condition
    let onTrue ← branch levels ";" "" onTrue
    let onFalse ← branch levels "" " else " onFalse
    return "if (" ++ condition ++ ") " ++ onTrue ++ onFalse
  | .tryExcept _ body handlers => do
    let body ← stmts levels body
    let handlers ← handlers? levels handlers
    return "try \x7b" ++ body ++ "\x7d catch ($e) \x7b" ++ handlers ++ "\x7d"
  | .tryFinally _ body cleanup => do
    let body ← stmts levels body
    let cleanup ← stmts levels cleanup
    return "try \x7b" ++ body ++ "\x7d finally \x7b" ++ cleanup ++ "\x7d"

/-- The text of a branch behind a word, or what stands for a branch that is not
there. -/
def branch (levels : List Level) (absent word : String) : Option Stmt → Option String
  | none => some absent
  | some s => do
    let text ← stmt levels s
    return word ++ text

/-- The text of what follows `except`. -/
def handlers? (levels : List Level) : Option Handlers → Option String
  | none => some ""
  | some (.all body) => stmts levels body
  | some (.clause _) => none

/-- The text of a compound statement, which may sit directly in a block. -/
def compound (levels : List Level) (inBlock : Bool) : Compound → Option String
  | ⟨_, body⟩ => do
    let text ← stmts levels body
    return inBraces (!inBlock) text

/-- The text of a statement that must be there. -/
def stmt? (levels : List Level) : Option Stmt → Option String
  | none => none
  | some s => stmt levels s

/-- The text of a list of statements. -/
def stmts (levels : List Level) : List (Option Stmt) → Option String
  | [] => some ""
  | s :: rest => do
    let first ← stmt? levels s
    let others ← stmts levels rest
    return first ++ others

end

/-! ### Declarations -/

/-- The text of a variable declaration. The first variable gets the initial
value, the others are set to the first. -/
def varDecl (levels : List Level) : Option VarDecl → Option String
  | none => none
  | some d =>
    match d.names, d.value with
    | [], _ => none
    | names, none => do
      let names ← idents names
      return "var " ++ commas names ++ ";"
    | first :: others, some value => do
      let name ← ident first
      let value ← expr levels value
      let others ← idents others
      return "var " ++ name ++ "=" ++ value ++ ";" ++
        String.join (others.map fun other => "var " ++ other ++ "=" ++ name ++ ";")

/-- The text of a constant declaration. -/
def constDecl (levels : List Level) : Option ConstDecl → Option String
  | none => none
  | some d => do
    let name ← ident d.name
    let value ← expr? levels d.value
    return "var " ++ name ++ "=" ++ value ++ ";"

/-- The texts of a list put together. -/
def concat {α : Type} (text : α → Option String) : List α → Option String
  | [] => some ""
  | a :: rest => do
    let first ← text a
    let others ← concat text rest
    return first ++ others

/-- The text of the parameters declared with one type. -/
def paramGroup : Option ParamGroup → Option String
  | none => none
  | some group => do
    let names ← idents group.names
    return commas names

/-- The texts of the groups of a parameter list. -/
def paramGroups : List (Option ParamGroup) → Option (List String)
  | [] => some []
  | group :: rest => do
    let first ← paramGroup group
    let others ← paramGroups rest
    return first :: others

mutual

/-- The text of a declaration where the given levels are visible. -/
def decl (levels : List Level) : Decl → Option String
  | .var d => varDecl levels (some d)
  | .vars _ list => concat (varDecl levels) list
  | .const d => constDecl levels (some d)
  | .consts _ list => concat (constDecl levels) list
  | .header h => do
    let _ ← nameOf h.name
    return ""
  | .routine r => routine levels r

/-- The text of a routine. What it declares makes up a level of its own. -/
def routine (levels : List Level) : Routine → Option String
  | ⟨_, _, name, params, body, _⟩ => do
    let name ← ident name
    let groups ← paramGroups params
    let level := levelOf params ((body.map Block.decls).getD [])
    let text ← block? (level :: levels) false body
    return "function " ++ name ++ "(" ++ commas groups ++ ")" ++ text

/-- The text of a block, which may be the program's own. -/
def block (levels : List Level) (ofProgram : Bool) : Block → Option String
  | ⟨_, list, body⟩ => do
    let declared ← decls levels list
    match body with
    | none => return inBraces (!ofProgram) declared
    | some body =>
      let done ← compound levels true body
      return inBraces (!ofProgram) (declared ++ done)

/-- The text of a block that must be there. -/
def block? (levels : List Level) (ofProgram : Bool) : Option Block → Option String
  | none => none
  | some b => block levels ofProgram b

/-- The text of a declaration that must be there. -/
def decl? (levels : List Level) : Option Decl → Option String
  | none => none
  | some d => decl levels d

/-- The text of a list of declarations. -/
def decls (levels : List Level) : List (Option Decl) → Option String
  | [] => some ""
  | d :: rest => do
    let first ← decl? levels d
    let others ← decls levels rest
    return first ++ others

end

/-! ### Files -/

/-- The text of a file. A unit makes up one level, the interface part first. -/
def translate : File → Option String
  | .program file => block? [levelOf [] file.decls] true file.block
  | .unit file => do
    let levels := [levelOf [] file.decls]
    let interfaceText ← decls levels ((file.interfacePart.map UnitPart.decls).getD [])
    let implementationText ← decls levels ((file.implementationPart.map UnitPart.decls).getD [])
    return interfaceText ++ implementationText

end PascalCompiler.Lexical
