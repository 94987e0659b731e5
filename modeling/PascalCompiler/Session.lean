import PascalCompiler.Failure

/-!
# Working on a file

A session holds a file, or none, and answers requests about it. Only resolving
and compiling change the scopes attached to the file, whether or not they
succeed; declarations and statements can be added at any time.

## Main definitions

* `Holder`, `File.holders`: the file and routines that can carry a scope
* `Session.Request`, `Session.Answer`: what can be asked and answered
* `Session.answer`: the answer to a request, and the file after it
-/

namespace PascalCompiler

/-- A file or routine that can carry a scope. -/
structure Holder where
  kind : Kind
  /-- The name as written, empty for a file. -/
  name : String
  scope : Option Scope
  /-- The number of the holder whose scope is around, if a scope is attached. -/
  parent : Option Nat

namespace Session

mutual

/-- The holders in a routine, which has the number `own` and is inside the
holder with the number `parent`. -/
def routineHolders (parent own : Nat) : Routine → List Holder
  | ⟨position, kind, name, params, block, scope⟩ =>
    ⟨Routine.nodeKind ⟨position, kind, name, params, block, scope⟩,
        (name.map Ident.name).getD "", scope, scope.map fun _ => parent⟩ ::
      blockHolders own (own + 1) block

/-- The holders in a block that may be absent. -/
def blockHolders (parent next : Nat) : Option Block → List Holder
  | none => []
  | some ⟨_, decls, _⟩ => declHolders parent next decls

/-- The holders in a list of declarations. The first gets the number `next`. -/
def declHolders (parent next : Nat) : List (Option Decl) → List Holder
  | [] => []
  | some (.routine r) :: rest =>
    let inside := routineHolders parent next r
    inside ++ declHolders parent (next + inside.length) rest
  | _ :: rest => declHolders parent next rest

end

end Session

/-- The holders in a file: the file itself, then the routines, each in front of
those inside it. -/
def File.holders (file : File) : List Holder :=
  ⟨file.node.kind, "", file.scope, none⟩ :: Session.declHolders 0 1 file.decls

/-- A block with one more declaration. -/
def Block.addDecl (block : Option Block) (decl : Option Decl) : Block :=
  let block := block.getD ⟨.unknown, [], none⟩
  { block with decls := block.decls ++ [decl] }

/-- A block with one more statement. -/
def Block.addStmt (block : Option Block) (stmt : Option Stmt) : Block :=
  let block := block.getD ⟨.unknown, [], none⟩
  let body := block.body.getD ⟨.unknown, []⟩
  { block with body := some { body with body := body.body ++ [stmt] } }

/-- A file with one more declaration, for a unit in its implementation part. -/
def File.addDecl (decl : Option Decl) : File → File
  | .program f => .program { f with block := some (.addDecl f.block decl) }
  | .unit f =>
    let part := f.implementationPart.getD {}
    .unit { f with implementationPart := some { part with decls := part.decls ++ [decl] } }

/-- A file with one more statement. Units have none. -/
def File.addStmt (stmt : Option Stmt) : File → File
  | .program f => .program { f with block := some (.addStmt f.block stmt) }
  | .unit f => .unit f

namespace Session

/-- What can be asked about a file. -/
inductive Request where
  | resolve
  | generate
  | compile
  | dump
  | scopes
  /-- What a name denotes in the scope of the holder with a number. -/
  | lookup (holder : Nat) (name : String)
  | addDecl (decl : Option Decl)
  | addStmt (stmt : Option Stmt)

/-- What can be answered. -/
inductive Answer where
  | done
  | failed (failure : Failure)
  | script (text : String)
  | dump (text : String)
  | scopes (holders : List Holder)
  | denotes (kind : NameKind) (canInvoke : Bool)

/-- The answer that a result gives. -/
def Answer.ofScript : Except Failure String → Answer
  | .ok text => .script text
  | .error failure => .failed failure

/-- What a name denotes in a scope that may not be attached. -/
def Answer.ofLookup (scope : Option Scope) (name : String) : Answer :=
  match scope with
  | some scope => .denotes (scope.kindOf name) (scope.canInvoke name)
  | none => .denotes .unknown true

/-- The answer to a request about a file, and the file after it. -/
def answerFile (file : File) : Request → Answer × File
  | .resolve =>
    (if file.defects.isEmpty then .done else .failed (.resolution file.defects), file.resolve)
  | .generate => (.ofScript (file.generate.mapError .generation), file)
  | .compile => (.ofScript (file.compile.mapError .ofCompile), file.resolve)
  | .dump => (.dump file.node.dump, file)
  | .scopes => (.scopes file.holders, file)
  | .lookup holder name => (.ofLookup (file.holders[holder]?.bind Holder.scope) name, file)
  | .addDecl decl => (.done, file.addDecl decl)
  | .addStmt stmt => (.done, file.addStmt stmt)

/-- The answer to a request when there is no file. -/
def answerNone : Request → Answer
  | .resolve | .generate | .compile => .failed .noFile
  | .dump => .dump (Node.dump? none)
  | .scopes => .scopes []
  | .lookup _ name => .ofLookup none name
  | .addDecl _ | .addStmt _ => .done

/-- The answer to a request, and the file after it. -/
def answer (file : Option File) (request : Request) : Answer × Option File :=
  match file with
  | none => (answerNone request, none)
  | some file =>
    let (reply, file) := answerFile file request
    (reply, some file)

/-- The answers to a sequence of requests. -/
def answers (file : Option File) : List Request → List Answer
  | [] => []
  | request :: rest =>
    let (reply, file) := answer file request
    reply :: answers file rest

end Session

end PascalCompiler
