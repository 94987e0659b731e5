import PascalCompiler.Proofs.Resolution.Skeleton

/-!
# Sessions forget

The scopes attached to a file are what a session remembers of the requests before. They
are never seen again after the next resolution: two files that differ in nothing but
scopes become the same file. So compiling a file answers as it would for a file
that was built from scratch, whatever was asked before. Statements can be added without
resolving the file again.

## Main definitions

* `Session.after`: the file after a sequence of requests
* `Session.built`: the file built from scratch with all that has been added to it

## Main results

* `Session.detach_after`: a session changes the file only by what is added, and by its scopes
* `Session.resolution_forgets_history`: neither what a resolution leaves on a file nor what the file
  compiles to depends on the history of the session
-/

namespace PascalCompiler

/-! ### Additions to a file -/

namespace Resolution

theorem attachBlock?_addStmt (tables : List NameTable) (block : Option Block)
    (stmt : Option Stmt) : attachBlock? tables (some (.addStmt block stmt)) =
      some (.addStmt (attachBlock? tables block) stmt) := by
  cases block with
  | none => simp [attachBlock?, attachBlock, attachDecls, Block.addStmt]
  | some block =>
    obtain ⟨position, decls, body⟩ := block
    simp [attachBlock?, attachBlock, Block.addStmt]

theorem detachBlock?_addStmt (block : Option Block) (stmt : Option Stmt) :
    detachBlock? (some (.addStmt block stmt)) = some (.addStmt (detachBlock? block) stmt) := by
  cases block with
  | none => simp [detachBlock?, detachDecls, Block.addStmt]
  | some block =>
    obtain ⟨position, decls, body⟩ := block
    simp [detachBlock?, Block.addStmt]

theorem detachBlock?_addDecl (block : Option Block) (decl : Option Decl) :
    detachBlock? (some (.addDecl block decl)) =
      some (.addDecl (detachBlock? block) (decl.map detachDecl)) := by
  cases block with
  | none => simp [detachBlock?, detachDecls_eq_map, Block.addDecl]
  | some block =>
    obtain ⟨position, decls, body⟩ := block
    simp [detachBlock?, detachDecls_eq_map, Block.addDecl]

end Resolution

namespace File

open Resolution

theorem decls_addStmt (stmt : Option Stmt) (file : File) :
    (file.addStmt stmt).decls = file.decls := by
  cases file with
  | program f =>
    obtain ⟨position, heading, usesClause, block, comments, scope⟩ := f
    cases block <;> rfl
  | unit f => rfl

/-- A statement can be added before or after a resolution. -/
theorem resolve_addStmt (stmt : Option Stmt) (file : File) :
    (file.addStmt stmt).resolve = file.resolve.addStmt stmt := by
  have names : (file.addStmt stmt).nameTable = file.nameTable := by
    rw [nameTable, nameTable, decls_addStmt]
  rw [resolve_eq, resolve_eq]
  cases file with
  | program f =>
    rw [addStmt] at names ⊢
    rw [attachFile, names, attachFile, addStmt]
    simp only [attachBlock?_addStmt]
  | unit f => rfl

theorem detach_addStmt (stmt : Option Stmt) (file : File) :
    (file.addStmt stmt).detach = file.detach.addStmt stmt := by
  cases file with
  | program f =>
    rw [addStmt, detach, detach, addStmt]
    simp only [detachBlock?_addStmt]
  | unit f => rfl

theorem detach_addDecl (decl : Option Decl) (file : File) :
    (file.addDecl decl).detach = file.detach.addDecl (decl.map detachDecl) := by
  cases file with
  | program f =>
    rw [addDecl, detach, detach, addDecl]
    simp only [detachBlock?_addDecl]
  | unit f =>
    obtain ⟨position, heading, interfacePart, implementationPart, scope⟩ := f
    rw [addDecl, detach, detach, addDecl]
    cases implementationPart with
    | none => simp [detachPart, detachDecls_eq_map]
    | some part => simp [detachPart, detachDecls_eq_map]

end File

namespace Session

/-! ### Runs of a session -/

/-- The file after a sequence of requests. -/
def after (file : Option File) : List Request → Option File
  | [] => file
  | request :: rest => after (answer file request).2 rest

theorem after_append (file : Option File) (requests more : List Request) :
    after file (requests ++ more) = after (after file requests) more := by
  induction requests generalizing file with
  | nil => rfl
  | cons request rest ih => exact ih (answer file request).2

/-- The requests at the end of a session are about the file that it has left. -/
theorem answers_append (file : Option File) (requests more : List Request) :
    answers file (requests ++ more) =
      answers file requests ++ answers (after file requests) more := by
  induction requests generalizing file with
  | nil => rfl
  | cons request rest ih =>
    calc answers file (request :: rest ++ more)
      _ = (answer file request).1 :: answers (answer file request).2 (rest ++ more) := rfl
      _ = (answer file request).1 :: (answers (answer file request).2 rest ++
            answers (after file (request :: rest)) more) := by rw [ih, after]
      _ = answers file (request :: rest) ++ answers (after file (request :: rest)) more := rfl

theorem getLast?_answers (file : Option File) (requests : List Request) (request : Request) :
    (answers file (requests ++ [request])).getLast? =
      some (answer (after file requests) request).1 := by
  rw [answers_append]
  exact List.getLast?_concat

/-- A file with what a request adds to it. -/
def add (file : File) : Request → File
  | .addDecl decl => file.addDecl decl
  | .addStmt stmt => file.addStmt stmt
  | _ => file

/-- The file that is built from scratch with all that the requests add to it. -/
def built (file : File) (requests : List Request) : File :=
  (requests.foldl add file).detach

/-- A request changes a file only by what it adds, and by its scopes. -/
theorem detach_answerFile (file : File) (request : Request) :
    (answerFile file request).2.detach = (add file request).detach := by
  cases request with
  | resolve | compile => exact file.detach_resolve
  | _ => rfl

/-- Adding to a file does not depend on its scopes. -/
theorem detach_add {file other : File} (same : file.detach = other.detach) (request : Request) :
    (add file request).detach = (add other request).detach := by
  cases request with
  | addDecl decl => rw [add, add, File.detach_addDecl, File.detach_addDecl, same]
  | addStmt stmt => rw [add, add, File.detach_addStmt, File.detach_addStmt, same]
  | _ => exact same

/-- A session changes a file only by what it adds, and by its scopes. -/
theorem detach_after {file other : File} (same : file.detach = other.detach)
    (requests : List Request) :
    ∃ current, after (some file) requests = some current ∧
      current.detach = built other requests := by
  induction requests generalizing file other with
  | nil => exact ⟨file, rfl, same⟩
  | cons request rest ih =>
    have step : (answerFile file request).2.detach = (add other request).detach := by
      rw [detach_answerFile, detach_add same]
    exact ih step

/-- Statements that are added after a resolution can as well be added before. -/
theorem after_addStmts (file : File) (stmts : List (Option Stmt)) :
    ∃ current : File,
      after (some file.resolve) (stmts.map Request.addStmt) = some current.resolve := by
  induction stmts generalizing file with
  | nil => exact ⟨file, rfl⟩
  | cons stmt rest ih =>
    have added : (answer (some file.resolve) (.addStmt stmt)).2 =
        some (file.addStmt stmt).resolve :=
      congrArg some (file.resolve_addStmt stmt).symm
    rw [List.map_cons, after, added]
    exact ih (file.addStmt stmt)

/-- A session that ends with statements added to a resolved file has left a resolved file. -/
theorem after_resolve_addStmts (file : File) (requests : List Request)
    (stmts : List (Option Stmt)) :
    ∃ current : File, after (some file) (requests ++ .resolve :: stmts.map Request.addStmt) =
      some current.resolve := by
  obtain ⟨current, isCurrent, -⟩ := detach_after (rfl : file.detach = _) requests
  rw [after_append, isCurrent]
  exact after_addStmts current stmts

/-- A resolved file is not changed by another resolution. -/
theorem after_resolve_resolved (file : File) :
    after (some file.resolve) [.resolve] = some file.resolve :=
  congrArg some file.resolve_resolve

/-- What a resolution leaves behind is determined by the skeleton of the file, whether or
not the file has defects, and does not depend on earlier scopes. So a file compiles after any
requests as it does when built from scratch, and a resolved file need not be resolved
again when statements are added to it. -/
theorem resolution_forgets_history (file other : File) (requests : List Request)
    (stmts : List (Option Stmt)) :
    (file.skeleton = other.skeleton →
      (answerFile file .resolve).2.holders = (answerFile other .resolve).2.holders) ∧
    (file.detach = other.detach →
      (answerFile file .resolve).2 = (answerFile other .resolve).2) ∧
    (∀ holder ∈ (answerFile file .resolve).2.holders, holder.scope.isSome) ∧
    answers (some file) (requests ++ [.compile]) =
      answers (some file) requests ++ answers (some (built file requests)) [.compile] ∧
    (answers (some file)
        (requests ++ .resolve :: stmts.map Request.addStmt ++ [.generate])).getLast? =
      (answers (some file)
        (requests ++ .resolve :: stmts.map Request.addStmt ++ [.resolve, .generate])).getLast? := by
  refine ⟨fun same => ?_, fun same => ?_, ?_, ?_, ?_⟩
  · change file.resolve.holders = other.resolve.holders
    rw [File.holders_resolve, File.holders_resolve, same]
  · change file.resolve = other.resolve
    rw [← File.resolve_detach file, ← File.resolve_detach other, same]
  · exact File.isSome_scope_of_mem_holders file
  · obtain ⟨current, isCurrent, fresh⟩ := detach_after (rfl : file.detach = _) requests
    rw [answers_append, isCurrent, ← fresh]
    change _ = _ ++ [Answer.ofScript (current.detach.compile.mapError .ofCompile)]
    rw [File.compile_detach]
    rfl
  · obtain ⟨current, isCurrent⟩ := after_resolve_addStmts file requests stmts
    rw [List.append_cons _ Request.resolve [.generate], getLast?_answers, getLast?_answers,
      after_append _ _ [.resolve], isCurrent, after_resolve_resolved]

/-- A program with a routine inside of one that has no name. All carry the same scope. -/
def layeredProgram (scope : Option Scope) (stmts : List (Option Stmt)) : File :=
  let inner : Routine := ⟨.unknown, .procedure, some ⟨.unknown, "Inner"⟩, [], none, scope⟩
  let outer : Routine :=
    ⟨.unknown, .function none, none, [], some ⟨.unknown, [some (.routine inner)], none⟩, scope⟩
  .program
    { block := some ⟨.unknown, [some (.routine outer)], some ⟨.unknown, stmts⟩⟩, scope := scope }

/-- Resolution leaves the same scopes on the program whether or not there is a statement in
it, and whether or not there were scopes before. -/
theorem resolution_forgets_layeredProgram :
    (layeredProgram none []).skeleton =
        (layeredProgram (some ⟨.empty, []⟩) [none]).skeleton ∧
      (answerFile (layeredProgram none []) .resolve).2.holders =
        (answerFile (layeredProgram (some ⟨.empty, []⟩) [none]) .resolve).2.holders ∧
      (layeredProgram none []).detach = (layeredProgram (some ⟨.empty, []⟩) []).detach ∧
      (answerFile (layeredProgram none []) .resolve).2 =
        (answerFile (layeredProgram (some ⟨.empty, []⟩) []) .resolve).2 :=
  ⟨rfl, (resolution_forgets_history _ _ [] []).1 rfl, rfl,
    (resolution_forgets_history _ _ [] []).2.1 rfl⟩

end Session

end PascalCompiler
