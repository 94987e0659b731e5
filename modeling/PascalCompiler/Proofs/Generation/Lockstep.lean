import PascalCompiler.Proofs.Generation.Trail
import PascalCompiler.Proofs.Tree.Erasure

/-!
# Two runs in step

The generator is run on a tree and on what an erasure leaves of it. Both runs take the same
steps, write the same script and fail at the same node for the same reason, up to the first
scope that is looked up and is no longer there. If scopes are kept, there is no such
place.

So a file without scopes is generated as the resolved one is, unless it fails for want
of a scope. The resolved file never does: the file itself has a scope, whatever is wrong with
its declarations.

## Main definitions

* `Generation.Mirrors`: the outcome on an erased tree beside the outcome on the tree
* `Generation.InStep`: a descent into an erased tree beside the descent into the tree

## Main results

* `Generation.inStep_expr`, `Generation.inStep_stmt`, `Generation.inStep_decl`: the runs on
  expressions, statements and declarations are in step
* `Generation.mirrors_script`: so are those on files
* `File.generate_resolve`: resolving a file only removes errors of missing scopes
-/

namespace PascalCompiler

namespace Generation

/-- The run on the erased tree has the same result, or the same error with what is left of its
node, or it misses a scope that has been erased. -/
def Mirrors {α : Type} (e : Erasure) (erased result : Except GenerationError α) : Prop :=
  erased = result.mapError e.error ∨ e.scopes ∧ ∃ trace, erased = .error (.noScope trace)

namespace Mirrors

variable {α β : Type} {e : Erasure}

theorem ok {a : α} : Mirrors e (.ok a) (.ok a) :=
  .inl rfl

theorem bind {erased result : Except GenerationError α} {next more : α → Except GenerationError β}
    (first : Mirrors e erased result) (rest : ∀ a, Mirrors e (next a) (more a)) :
    Mirrors e (erased >>= next) (result >>= more) := by
  rcases first with same | ⟨lost, trace, same⟩
  · rw [same]
    cases result with
    | error error => exact .inl rfl
    | ok a => exact rest a
  · -- the erased run ends at the missing scope
    rw [same]
    exact .inr ⟨lost, trace, rfl⟩

/-- What the erased run writes is what the run writes. -/
theorem eq_ok {erased result : Except GenerationError α} {a : α} (step : Mirrors e erased result)
    (written : erased = .ok a) : result = .ok a := by
  subst written
  rcases step with same | ⟨-, trace, same⟩
  · cases result with
    | ok b => exact same.symm
    | error error => cases same
  · cases same

/-- Where the erased run fails, the run fails, unless a scope is missing. -/
theorem eq_error {erased result : Except GenerationError α} {error : GenerationError}
    (step : Mirrors e erased result) (failed : erased = .error error)
    (other : ∀ trace, error ≠ .noScope trace) :
    ∃ found, result = .error found ∧ e.error found = error := by
  subst failed
  rcases step with same | ⟨-, trace, same⟩
  · cases result with
    | ok b => cases same
    | error found =>
      cases same
      exact ⟨found, rfl, rfl⟩
  · cases same
    exact absurd rfl (other trace)

end Mirrors

/-- Inside of erased nodes, the descent into the erased tree does what the descent into the tree
does inside of the nodes. -/
def InStep {α : Type} (e : Erasure) (erased descent : Descent α) : Prop :=
  ∀ context, Mirrors e (answer (e.context context) erased) (answer context descent)

namespace InStep

open Visiting (look visit)

variable {α β : Type} {e : Erasure}

theorem pure {a : α} : InStep e (pure a) (pure a) :=
  fun _ => .ok

theorem bind {erased descent : Descent α} {next more : α → Descent β}
    (first : InStep e erased descent) (rest : ∀ a, InStep e (next a) (more a)) :
    InStep e (erased >>= next) (descent >>= more) :=
  fun context => (first context).bind fun a => rest a context

theorem visit (node : Node) {erased descent : Descent α} (inside : InStep e erased descent) :
    InStep e (visit (e.node node) erased) (visit node descent) :=
  fun context => inside (context.enter node)

theorem missing {part : Part} : InStep e (missing part : Descent α) (missing part) := by
  intro context
  change Mirrors e ((e.context context).missing part) (context.missing part)
  rw [Context.missing, Context.missing, e.trace_context, e.current?_context]
  exact .inl rfl

theorem unsupported (node : Node) {reason : Reason} :
    InStep e (unsupported (e.node node) reason : Descent α) (unsupported node reason) := by
  intro context
  change Mirrors e ((e.context context).unsupported (e.node node) reason)
    (context.unsupported node reason)
  rw [Context.unsupported, Context.unsupported, e.trace_context]
  exact .inl rfl

/-- Erased nodes have their kinds, so the question is answered alike. -/
theorem parentIs {kind : Kind} : InStep e (parentIs kind) (parentIs kind) := by
  intro context
  change Mirrors e (.ok ((e.context context).parentIs kind)) (.ok (context.parentIs kind))
  rw [e.parentIs_context]
  exact .ok

/-- The only place where the runs can part. -/
theorem scope : InStep e (look Context.scope) (look Context.scope) := by
  intro context
  change Mirrors e (e.context context).scope context.scope
  rw [Context.scope, Context.scope, e.trace_context, e.scope?_context, Erasure.scope]
  cases lost : e.scopes with
  | true => exact .inr ⟨lost, context.trace, rfl⟩
  | false =>
    left
    cases context.scope? <;> rfl

end InStep

/-! ### Names -/

section Names

variable (e : Erasure)

theorem inStep_nameOf (ident : Option Ident) :
    InStep e (nameOf (ident.map e.ident)) (nameOf ident) := by
  cases ident with
  | none => exact .missing
  | some ident =>
    change InStep e (if ident.name = "" then _ else _) (if ident.name = "" then _ else _)
    split
    · exact .missing
    · exact .pure

theorem inStep_namesOf (idents : List (Option Ident)) :
    InStep e (namesOf (e.idents idents)) (namesOf idents) := by
  induction idents with
  | nil => exact .pure
  | cons ident rest ih => exact .bind (inStep_nameOf e ident) fun _ => .bind ih fun _ => .pure

/-- The target of a call keeps its name and may lose its position. -/
theorem InStep.target {β : Type} (target : Option Ident) {next more : Ident → Descent β}
    (rest : ∀ ident, InStep e (next (e.ident ident)) (more ident)) :
    InStep e (callTarget (target.map e.ident) >>= next) (callTarget target >>= more) := by
  cases target with
  | none => exact .missing
  | some ident =>
    -- the identifier is left before the rest goes on
    intro context
    have checked := inStep_nameOf e (some ident) (context.enter (.ident ident))
    simp only [Option.map_some, callTarget, answer_bind, answer_visit, answer_pure, bind_assoc]
    exact checked.bind fun _ => rest ident context

theorem inStep_assignmentTarget (target : Option Ident) :
    InStep e (assignmentTarget (target.map e.ident)) (assignmentTarget target) := by
  cases target with
  | none => exact .missing
  | some ident => exact inStep_nameOf e (some ident)

end Names

/-! ### Expressions -/

theorem isEmpty_relocateAll (move : Position → Position) (args : List (Option Expr)) :
    (Expr.relocateAll move args).isEmpty = args.isEmpty := by
  cases args <;> rfl

mutual

/-- The run on an erased expression is in step with the run on the expression. -/
theorem inStep_expr (e : Erasure) :
    ∀ x : Expr, InStep e (expr (x.relocate e.position)) (expr x)
  | .text _ _ | .integer _ _ => by
    rw [Expr.relocate, expr, expr]
    exact .pure
  | .control _ code => by
    rw [Expr.relocate, expr, expr]
    cases controlCode code with
    | ok number => exact .pure
    | error reason =>
      intro context
      rw [answer_look, answer_look, e.trace_context]
      exact .inl rfl
  | .parens position inner => by
    have stepInner := inStep_expr? e inner
    rw [Expr.relocate, expr, expr]
    exact .visit (.expr (.parens position inner)) (.bind stepInner fun _ => .pure)
  | .binary position op left right => by
    have stepLeft := inStep_expr? e left
    have stepRight := inStep_expr? e right
    rw [Expr.relocate, expr, expr]
    refine .visit (.expr (.binary position op left right)) ?_
    cases Script.Operator.ofSource? op with
    | none => exact .unsupported (.expr (.binary position op left right))
    | some operator => exact .bind stepLeft fun _ => .bind stepRight fun _ => .pure
  | .call position target args => by
    have stepArgs := inStep_exprs e args
    rw [Expr.relocate, expr, expr, isEmpty_relocateAll]
    refine .visit (.expr (.call position target args)) (InStep.target e target fun ident => ?_)
    split
    · -- the name is looked up, and without scopes the erased run ends here
      exact .bind .scope fun _ => .pure
    · exact .bind stepArgs fun _ => .pure
  | .setOf position elements => by
    have stepElements := inStep_setElements e elements
    rw [Expr.relocate, expr, expr]
    exact .visit (.expr (.setOf position elements)) (.bind stepElements fun _ => .pure)

theorem inStep_expr? (e : Erasure) :
    ∀ value : Option Expr, InStep e (expr? (Expr.relocate? e.position value)) (expr? value)
  | none => by
    rw [Expr.relocate?, expr?]
    exact .missing
  | some x => by
    rw [Expr.relocate?, expr?, expr?]
    exact inStep_expr e x

theorem inStep_exprs (e : Erasure) :
    ∀ list : List (Option Expr),
      InStep e (exprs (Expr.relocateAll e.position list)) (exprs list)
  | [] => by
    rw [Expr.relocateAll, exprs]
    exact .pure
  | value :: rest => by
    rw [Expr.relocateAll, exprs, exprs]
    exact .bind (inStep_expr? e value) fun _ => .bind (inStep_exprs e rest) fun _ => .pure

theorem inStep_setElement (e : Erasure) :
    ∀ value : Option Element,
      InStep e (setElement (Element.relocate? e.position value)) (setElement value)
  | none => by
    rw [Element.relocate?, setElement]
    exact .missing
  | some (.range range) => by
    rw [Element.relocate?, setElement, setElement]
    exact .unsupported (.range range)
  | some (.expr x) => by
    rw [Element.relocate?, setElement, setElement]
    exact inStep_expr e x

theorem inStep_setElements (e : Erasure) :
    ∀ list : List (Option Element),
      InStep e (setElements (Element.relocateAll e.position list)) (setElements list)
  | [] => by
    rw [Element.relocateAll, setElements]
    exact .pure
  | value :: rest => by
    rw [Element.relocateAll, setElements, setElements]
    exact .bind (inStep_setElement e value) fun _ =>
      .bind (inStep_setElements e rest) fun _ => .pure

end

/-! ### Statements -/

mutual

/-- The run on an erased statement is in step with the run on the statement. -/
theorem inStep_stmt (e : Erasure) :
    ∀ s : Stmt, InStep e (stmt (s.relocate e.position)) (stmt s)
  | .assign position target op source => by
    rw [Stmt.relocate, stmt, stmt]
    refine .visit (.stmt (.assign position target op source)) ?_
    refine .bind (inStep_assignmentTarget e target) fun _ => ?_
    split
    · exact .bind (inStep_expr? e source) fun _ => .pure
    · exact .unsupported (.stmt (.assign position target op source))
  | .call position target args => by
    rw [Stmt.relocate, stmt, stmt]
    refine .visit (.stmt (.call position target args)) (InStep.target e target fun ident => ?_)
    exact .bind (inStep_exprs e args) fun _ => .pure
  | .compound value => by
    rw [Stmt.relocate, stmt, stmt]
    exact inStep_compound e value
  | .ifThen position condition onTrue none => by
    have stepTrue := inStep_branch e onTrue
    rw [Stmt.relocate, Stmt.relocate?.eq_1, stmt, stmt]
    exact .visit (.stmt (.ifThen position condition onTrue none))
      (.bind (inStep_expr? e condition) fun _ => .bind stepTrue fun _ => .pure)
  | .ifThen position condition onTrue (some onFalse) => by
    have stepTrue := inStep_branch e onTrue
    have stepFalse := inStep_stmt e onFalse
    rw [Stmt.relocate, Stmt.relocate?.eq_2, stmt, stmt]
    exact .visit (.stmt (.ifThen position condition onTrue (some onFalse)))
      (.bind (inStep_expr? e condition) fun _ =>
        .bind stepTrue fun _ => .bind stepFalse fun _ => .pure)
  | .tryExcept position body none => by
    have stepBody := inStep_stmts e body
    rw [Stmt.relocate, Handlers.relocate?, stmt, stmt]
    exact .visit (.stmt (.tryExcept position body none)) (.bind stepBody fun _ => .pure)
  | .tryExcept position body (some (.all handlers)) => by
    have stepBody := inStep_stmts e body
    have stepHandlers := inStep_stmts e handlers
    rw [Stmt.relocate, Handlers.relocate?, stmt, stmt]
    exact .visit (.stmt (.tryExcept position body (some (.all handlers))))
      (.bind stepBody fun _ => .bind stepHandlers fun _ => .pure)
  | .tryExcept position body (some (.clause clause)) => by
    rw [Stmt.relocate, Handlers.relocate?, stmt, stmt]
    exact .visit (.stmt (.tryExcept position body (some (.clause clause))))
      (.unsupported (.handler clause))
  | .tryFinally position body cleanup => by
    have stepBody := inStep_stmts e body
    have stepCleanup := inStep_stmts e cleanup
    rw [Stmt.relocate, stmt, stmt]
    exact .visit (.stmt (.tryFinally position body cleanup))
      (.bind stepBody fun _ => .bind stepCleanup fun _ => .pure)

theorem inStep_branch (e : Erasure) :
    ∀ value : Option Stmt, InStep e (branch (Stmt.relocate? e.position value)) (branch value)
  | none => by
    rw [Stmt.relocate?, branch]
    exact .pure
  | some s => by
    rw [Stmt.relocate?, branch, branch]
    exact inStep_stmt e s

theorem inStep_compound (e : Erasure) :
    ∀ value : Compound, InStep e (compound (value.relocate e.position)) (compound value)
  | ⟨position, body⟩ => by
    have step := inStep_stmts e body
    rw [Compound.relocate, compound, compound]
    exact .visit (.stmt (.compound ⟨position, body⟩))
      (.bind .parentIs fun _ => .bind step fun _ => .pure)

theorem inStep_stmt? (e : Erasure) :
    ∀ value : Option Stmt, InStep e (stmt? (Stmt.relocate? e.position value)) (stmt? value)
  | none => by
    rw [Stmt.relocate?, stmt?]
    exact .missing
  | some s => by
    rw [Stmt.relocate?, stmt?, stmt?]
    exact inStep_stmt e s

theorem inStep_stmts (e : Erasure) :
    ∀ list : List (Option Stmt),
      InStep e (stmts (Stmt.relocateAll e.position list)) (stmts list)
  | [] => by
    rw [Stmt.relocateAll, stmts]
    exact .pure
  | value :: rest => by
    rw [Stmt.relocateAll, stmts, stmts]
    exact .bind (inStep_stmt? e value) fun _ => .bind (inStep_stmts e rest) fun _ => .pure

end

/-! ### Declarations -/

section Variables

variable (e : Erasure)

theorem inStep_varDecl (d : Option VarDecl) :
    InStep e (varDecl (d.map e.varDecl)) (varDecl d) := by
  cases d with
  | none => exact .missing
  | some d =>
    obtain ⟨position, names, type, value⟩ := d
    refine .visit (.decl (.var ⟨position, names, type, value⟩)) ?_
    rcases names with - | ⟨first, others⟩
    · exact .missing
    · cases value with
      | none => exact .bind (inStep_namesOf e (first :: others)) fun _ => .pure
      | some value =>
        exact .bind (inStep_nameOf e first) fun _ =>
          .bind (inStep_expr e value) fun _ => .bind (inStep_namesOf e others) fun _ => .pure

theorem inStep_varDecls (list : List (Option VarDecl)) :
    InStep e (varDecls (list.map (·.map e.varDecl))) (varDecls list) := by
  induction list with
  | nil => exact .pure
  | cons d rest ih => exact .bind (inStep_varDecl e d) fun _ => .bind ih fun _ => .pure

theorem inStep_constDecl (d : Option ConstDecl) :
    InStep e (constDecl (d.map e.constDecl)) (constDecl d) := by
  cases d with
  | none => exact .missing
  | some d =>
    obtain ⟨position, name, type, value⟩ := d
    refine .visit (.decl (.const ⟨position, name, type, value⟩)) ?_
    cases value with
    | none => exact .missing
    | some value =>
      exact .bind (inStep_nameOf e name) fun _ => .bind (inStep_expr e value) fun _ => .pure

theorem inStep_constDecls (list : List (Option ConstDecl)) :
    InStep e (constDecls (list.map (·.map e.constDecl))) (constDecls list) := by
  induction list with
  | nil => exact .pure
  | cons d rest ih => exact .bind (inStep_constDecl e d) fun _ => .bind ih fun _ => .pure

theorem inStep_paramGroup (group : Option ParamGroup) :
    InStep e (paramGroup (group.map e.paramGroup)) (paramGroup group) := by
  cases group with
  | none => exact .missing
  | some group => exact .visit (.param group) (inStep_namesOf e group.names)

theorem inStep_paramGroups (list : List (Option ParamGroup)) :
    InStep e (paramGroups (e.params list)) (paramGroups list) := by
  induction list with
  | nil => exact .pure
  | cons group rest ih =>
    exact .bind (inStep_paramGroup e group) fun _ => .bind ih fun _ => .pure

end Variables

mutual

/-- The run on an erased declaration is in step with the run on the declaration. -/
theorem inStep_decl (e : Erasure) :
    ∀ d : Decl, InStep e (decl (e.decl d)) (decl d)
  | .var d => by
    rw [Erasure.decl, decl, decl]
    exact inStep_varDecl e (some d)
  | .vars position list => by
    rw [Erasure.decl, decl, decl]
    exact .visit (.decl (.vars position list)) (inStep_varDecls e list)
  | .const d => by
    rw [Erasure.decl, decl, decl]
    exact inStep_constDecl e (some d)
  | .consts position list => by
    rw [Erasure.decl, decl, decl]
    exact .visit (.decl (.consts position list)) (inStep_constDecls e list)
  | .header _ => by
    -- nothing is written for a header, whatever its parameters were
    rw [Erasure.decl, decl, decl]
    exact .pure
  | .routine r => by
    rw [Erasure.decl, decl, decl]
    exact .bind (inStep_routine e r) fun _ => .pure

theorem inStep_routine (e : Erasure) :
    ∀ r : Routine, InStep e (routine (e.routine r)) (routine r)
  | ⟨position, kind, name, params, body, scope⟩ => by
    have stepBody := inStep_block? e body
    rw [Erasure.routine, routine, routine]
    exact .visit (.decl (.routine ⟨position, kind, name, params, body, scope⟩))
      (.bind (inStep_nameOf e name) fun _ =>
        .bind (inStep_paramGroups e params) fun _ => .bind stepBody fun _ => .pure)

theorem inStep_block (e : Erasure) :
    ∀ b : Block, InStep e (block (e.block b)) (block b)
  | ⟨position, list, body⟩ => by
    have stepDecls := inStep_decls e list
    rw [Erasure.block, block, block]
    refine .visit (.block ⟨position, list, body⟩) ?_
    refine .bind .parentIs fun _ => .bind stepDecls fun _ => ?_
    cases body with
    | none => exact .pure
    | some body => exact .bind (inStep_compound e body) fun _ => .pure

theorem inStep_block? (e : Erasure) :
    ∀ value : Option Block, InStep e (block? (e.block? value)) (block? value)
  | none => by
    rw [Erasure.block?, block?]
    exact .missing
  | some b => by
    rw [Erasure.block?, block?, block?]
    exact inStep_block e b

theorem inStep_decl? (e : Erasure) :
    ∀ value : Option Decl, InStep e (decl? (e.decl? value)) (decl? value)
  | none => by
    rw [Erasure.decl?, decl?]
    exact .missing
  | some d => by
    rw [Erasure.decl?, decl?, decl?]
    exact inStep_decl e d

theorem inStep_decls (e : Erasure) :
    ∀ list : List (Option Decl), InStep e (decls (e.decls list)) (decls list)
  | [] => by
    rw [Erasure.decls, decls]
    exact .pure
  | value :: rest => by
    rw [Erasure.decls, decls, decls]
    exact .bind (inStep_decl? e value) fun _ => .bind (inStep_decls e rest) fun _ => .pure

end

/-! ### Files -/

theorem inStep_file (e : Erasure) (f : File) : InStep e (file (e.file f)) (file f) := by
  cases f with
  | program f => exact .bind (inStep_block? e f.block) fun _ => .pure
  | unit f =>
    obtain ⟨position, heading, interfacePart, implementationPart, scope⟩ := f
    refine .bind ?_ fun _ => .bind ?_ fun _ => .pure
    · cases interfacePart with
      | none => exact .pure
      | some part => exact .visit (.interfacePart part) (inStep_decls e part.decls)
    · cases implementationPart with
      | none => exact .pure
      | some part => exact .visit (.implementationPart part) (inStep_decls e part.decls)

/-- The run on an erased file is in step with the run on the file. -/
theorem mirrors_script (e : Erasure) (file : File) :
    Mirrors e (script (e.file file)) (script file) := by
  rw [script_eq, script_eq]
  cases file with
  | program f => exact inStep_file e (.program f) (.root (.program f))
  | unit f => exact inStep_file e (.unit f) (.root (.unit f))

theorem mirrors_generate (e : Erasure) (file : File) :
    Mirrors e (e.file file).generate file.generate :=
  .bind (mirrors_script e file) fun _ => .ok

end Generation

/-! ### Resolving a file -/

/-- Resolving a file attaches a scope to it, even if there are defects. -/
theorem File.scope_node_resolve (file : File) :
    file.resolve.node.scope = some ⟨file.nameTable, []⟩ := by
  rw [resolve_eq]
  cases file <;> rfl

/-- A scope is found everywhere in a file that has one itself. -/
theorem File.generate_ne_noScope {file : File} (hasScope : file.node.scope ≠ none)
    (trace : List Kind) : file.generate ≠ .error (.noScope trace) := by
  intro failed
  obtain ⟨chain, descends, -, -, unscoped⟩ :=
    Generation.located_script file _ (script_of_generate failed)
  -- the file is the first node of the path that led to the error
  have isFirst : file.node ∈ chain := List.mem_of_mem_head? descends.start
  exact hasScope (unscoped file.node isFirst)

/-- An error has the same text with or without scopes. -/
theorem GenerationError.message_onlyScopes (error : GenerationError) :
    (Erasure.onlyScopes.error error).message = error.message := by
  have describe_eq (node : Option Node) (trace : List Kind) (heading reason : String) :
      describe (node.map Erasure.onlyScopes.node) trace heading reason =
        describe node trace heading reason := by
    cases node with
    | none => rfl
    | some node =>
      rw [Option.map_some, describe, describe, Erasure.position_node]
      rfl
  have kind_eq (node : Option Node) :
      kindOf (node.map Erasure.onlyScopes.node) = kindOf node := by
    cases node with
    | none => rfl
    | some node => exact Erasure.onlyScopes.kind_node node
  cases error with
  | unsupported node trace reason => rw [Erasure.error, message, message, describe_eq, kind_eq]
  | invalidValue node trace reason => rw [Erasure.error, message, message, describe_eq, kind_eq]
  | noScope trace => rfl

/-- A file without scopes is generated as it is after resolution, with the same text or the same
error, unless it fails because there is no scope. After resolution no scope is missing, whether
or not declarations have defects. -/
theorem File.generate_resolve {file : File} (bare : file.node.Bare) :
    (∀ trace, file.resolve.generate ≠ .error (.noScope trace)) ∧
    (∀ text, file.generate = .ok text → file.resolve.generate = .ok text) ∧
    ∀ error, file.generate = .error error → (∀ trace, error ≠ .noScope trace) →
      ∃ found, file.resolve.generate = .error found ∧
        Erasure.onlyScopes.error found = error ∧ found.message = error.message := by
  have erased : Erasure.onlyScopes.file file.resolve = file := by
    rw [Erasure.file_onlyScopes, detach_resolve, detach_eq_self bare]
  -- the file is what is left of the resolved one without its scopes
  have step := Generation.mirrors_generate .onlyScopes file.resolve
  rw [erased] at step
  have hasScope : file.resolve.node.scope ≠ none := by
    rw [scope_node_resolve]
    exact Option.some_ne_none _
  refine ⟨generate_ne_noScope hasScope, fun text => step.eq_ok, fun error failed other => ?_⟩
  obtain ⟨found, resolved, same⟩ := step.eq_error failed other
  exact ⟨found, resolved, same, same ▸ (GenerationError.message_onlyScopes found).symm⟩

/-- A program with a routine that has no block. -/
def blocklessProgram : File :=
  .program { block := some ⟨.unknown, [some (.routine
    ⟨⟨"a.pas", 0, 2, 1⟩, .procedure, some ⟨.unknown, "p"⟩, [], none, none⟩)], none⟩ }

theorem bare_blocklessProgram : blocklessProgram.node.Bare := by
  intro node within
  have mem : node ∈ [blocklessProgram.node,
      .block ⟨.unknown, [some (.routine
        ⟨⟨"a.pas", 0, 2, 1⟩, .procedure, some ⟨.unknown, "p"⟩, [], none, none⟩)], none⟩,
      .decl (.routine ⟨⟨"a.pas", 0, 2, 1⟩, .procedure, some ⟨.unknown, "p"⟩, [], none, none⟩),
      .ident ⟨.unknown, "p"⟩] := by
    refine within.mem_of_closed List.mem_cons_self ?_
    simp [blocklessProgram, File.node, Node.parts, Decl.parts, RoutineKind.parts,
      Component.optional, Component.mandatory, Component.listOf, Component.nodes,
      ProgramComments.named, List.reduceOption]
  simp only [List.mem_cons, List.not_mem_nil, or_false] at mem
  rcases mem with rfl | rfl | rfl | rfl <;> rfl

/-- The routine is at fault before and after resolution, which has given it a scope. -/
theorem File.generate_resolve_blocklessProgram :
    blocklessProgram.node.Bare ∧
      ∃ error found, blocklessProgram.generate = .error error ∧
        blocklessProgram.resolve.generate = .error found ∧
        Erasure.onlyScopes.error found = error ∧ found.message = error.message := by
  obtain ⟨-, -, keeps⟩ := File.generate_resolve bare_blocklessProgram
  obtain ⟨found, resolved, same, message⟩ := keeps _ rfl nofun
  exact ⟨bare_blocklessProgram, _, found, rfl, resolved, same, message⟩

end PascalCompiler
