import PascalCompiler.Generation.File

/-!
# Walking and descending

A file is walked with a single stack that all functions of the generator work on. Some nodes,
such as constants and the targets of assignments, are never pushed on it. A walk can end at
any place with an error, and the stack is popped then as well. Handing the visited nodes down
comes to the same. Whatever is on the stack when a function is called is on it when the
function returns, whether or not it has failed, and the function answers as it does if the
nodes on the stack are handed down to it.

So what is said of descents holds of walks, and the results on the generator are about
descents.

## Main definitions

* `Walk.Matches`: a walk that leaves the stack as it was and answers like a descent
* `Emitter`: the functions of the generator

## Main results

* `Walk.Matches.visit`: a visit leaves the stack as it was
* `Emitter.matches`: so do all functions of the generator, and answer as without a stack
* `Generation.script_eq`: the script of a file without a stack
-/

namespace PascalCompiler

/-! ### The stack after a walk -/

namespace Walk

variable {α β : Type}

/-- The walk gives what the descent gives, and leaves the stack as it was. -/
def Matches (walk : Walk α) (descent : Descent α) : Prop :=
  ∀ stack, walk stack = (Generation.answer stack descent, stack)

namespace Matches

theorem pure {a : α} : Matches (Pure.pure a) (Pure.pure a) := fun _ => rfl

theorem look {tell : Context → Except GenerationError α} :
    Matches (Visiting.look tell) (Visiting.look tell) := fun _ => rfl

theorem bind {walk : Walk α} {descent : Descent α} {next : α → Walk β} {more : α → Descent β}
    (first : Matches walk descent) (rest : ∀ a, Matches (next a) (more a)) :
    Matches (walk >>= next) (descent >>= more) := by
  intro stack
  change andThen walk next stack = _
  rw [andThen, first, Generation.answer_bind]
  -- either way the first part has left the stack as it was
  cases Generation.answer stack descent with
  | error error => rfl
  | ok a => exact rest a stack

/-- What is pushed before a visit is popped after it, on every way out. -/
theorem visit {node : Node} {walk : Walk α} {descent : Descent α}
    (matched : Matches walk descent) :
    Matches (Visiting.visit node walk) (Visiting.visit node descent) := by
  intro stack
  change inside node walk stack = _
  -- the node pushed is on top again
  simp only [inside, matched (stack.enter node), Context.leave?_enter, Option.getD_some]
  rw [Generation.answer_visit]

end Matches

end Walk

namespace Generation

open Walk (Matches)

/-! ### Expressions walked -/

theorem matches_nameOf (ident : Option Ident) : Matches (nameOf ident) (nameOf ident) := by
  cases ident with
  | none => exact .look
  | some ident =>
    rw [nameOf, nameOf]
    split
    · exact .look
    · exact .pure

theorem matches_namesOf (idents : List (Option Ident)) :
    Matches (namesOf idents) (namesOf idents) := by
  induction idents with
  | nil => exact .pure
  | cons ident rest ih =>
    rw [namesOf, namesOf]
    exact .bind (matches_nameOf ident) fun _ => .bind ih fun _ => .pure

theorem matches_callTarget (target : Option Ident) :
    Matches (callTarget target) (callTarget target) := by
  cases target with
  | none => exact .look
  | some ident =>
    rw [callTarget, callTarget]
    exact .visit (.bind (matches_nameOf (some ident)) fun _ => .pure)

theorem matches_assignmentTarget (target : Option Ident) :
    Matches (assignmentTarget target) (assignmentTarget target) := by
  cases target with
  | none => exact .look
  | some ident => exact matches_nameOf (some ident)

mutual

/-- An expression is walked with the stack as it is generated with the nodes on the stack. -/
theorem matches_expr : ∀ e : Expr, Matches (expr e) (expr e)
  | .text _ _ | .integer _ _ => by
    rw [expr, expr]
    exact .pure
  | .control _ code => by
    rw [expr, expr]
    cases controlCode code with
    | ok number => exact .pure
    | error reason => exact .look
  | .parens _ inner => by
    rw [expr, expr]
    exact .visit (.bind (matches_expr? inner) fun _ => .pure)
  | .binary _ op left right => by
    rw [expr, expr]
    apply Matches.visit
    cases Script.Operator.ofSource? op with
    | none => exact .look
    | some operator =>
      exact .bind (matches_expr? left) fun _ => .bind (matches_expr? right) fun _ => .pure
  | .call _ target args => by
    rw [expr, expr]
    apply Matches.visit
    refine .bind (matches_callTarget target) fun ident => ?_
    -- the target has been popped, so the scope is looked up from the call
    dsimp only
    split
    · exact .bind .look fun _ => .pure
    · exact .bind (matches_exprs args) fun _ => .pure
  | .setOf _ elements => by
    rw [expr, expr]
    exact .visit (.bind (matches_setElements elements) fun _ => .pure)

theorem matches_expr? : ∀ value : Option Expr, Matches (expr? value) (expr? value)
  | none => by
    rw [expr?, expr?]
    exact .look
  | some e => by
    rw [expr?, expr?]
    exact matches_expr e

theorem matches_exprs : ∀ list : List (Option Expr), Matches (exprs list) (exprs list)
  | [] => by
    rw [exprs, exprs]
    exact .pure
  | value :: rest => by
    rw [exprs, exprs]
    exact .bind (matches_expr? value) fun _ => .bind (matches_exprs rest) fun _ => .pure

theorem matches_setElement :
    ∀ value : Option Element, Matches (setElement value) (setElement value)
  | none | some (.range _) => by
    rw [setElement, setElement]
    exact .look
  | some (.expr e) => by
    rw [setElement, setElement]
    exact matches_expr e

theorem matches_setElements :
    ∀ list : List (Option Element), Matches (setElements list) (setElements list)
  | [] => by
    rw [setElements, setElements]
    exact .pure
  | value :: rest => by
    rw [setElements, setElements]
    exact .bind (matches_setElement value) fun _ => .bind (matches_setElements rest) fun _ => .pure

end

/-! ### Statements walked -/

mutual

/-- A statement is walked with the stack as it is generated with the nodes on the stack. -/
theorem matches_stmt : ∀ s : Stmt, Matches (stmt s) (stmt s)
  | .assign _ target op source => by
    rw [stmt, stmt]
    apply Matches.visit
    refine .bind (matches_assignmentTarget target) fun _ => ?_
    split
    · exact .bind (matches_expr? source) fun _ => .pure
    · exact .look
  | .call _ target args => by
    rw [stmt, stmt]
    exact .visit (.bind (matches_callTarget target) fun _ =>
      .bind (matches_exprs args) fun _ => .pure)
  | .compound value => by
    rw [stmt, stmt]
    exact matches_compound value
  | .ifThen _ condition onTrue none => by
    rw [stmt, stmt]
    exact .visit (.bind (matches_expr? condition) fun _ =>
      .bind (matches_branch onTrue) fun _ => .pure)
  | .ifThen _ condition onTrue (some onFalse) => by
    rw [stmt, stmt]
    exact .visit (.bind (matches_expr? condition) fun _ =>
      .bind (matches_branch onTrue) fun _ => .bind (matches_stmt onFalse) fun _ => .pure)
  | .tryExcept _ body none => by
    rw [stmt, stmt]
    exact .visit (.bind (matches_stmts body) fun _ => .pure)
  | .tryExcept _ body (some (.all handlers)) => by
    rw [stmt, stmt]
    exact .visit (.bind (matches_stmts body) fun _ =>
      .bind (matches_stmts handlers) fun _ => .pure)
  | .tryExcept _ _ (some (.clause _)) => by
    rw [stmt, stmt]
    -- refused from inside the statement, with the clause not pushed
    exact .visit .look
  | .tryFinally _ body cleanup => by
    rw [stmt, stmt]
    exact .visit (.bind (matches_stmts body) fun _ =>
      .bind (matches_stmts cleanup) fun _ => .pure)

theorem matches_branch : ∀ value : Option Stmt, Matches (branch value) (branch value)
  | none => by
    rw [branch, branch]
    exact .pure
  | some s => by
    rw [branch, branch]
    exact matches_stmt s

theorem matches_compound : ∀ value : Compound, Matches (compound value) (compound value)
  | ⟨_, body⟩ => by
    rw [compound, compound]
    -- the statement is on top when its parent is asked for
    exact .visit (.bind .look fun _ => .bind (matches_stmts body) fun _ => .pure)

theorem matches_stmt? : ∀ value : Option Stmt, Matches (stmt? value) (stmt? value)
  | none => by
    rw [stmt?, stmt?]
    exact .look
  | some s => by
    rw [stmt?, stmt?]
    exact matches_stmt s

theorem matches_stmts : ∀ list : List (Option Stmt), Matches (stmts list) (stmts list)
  | [] => by
    rw [stmts, stmts]
    exact .pure
  | value :: rest => by
    rw [stmts, stmts]
    exact .bind (matches_stmt? value) fun _ => .bind (matches_stmts rest) fun _ => .pure

end

/-! ### Declarations walked -/

theorem matches_varDecl (d : Option VarDecl) : Matches (varDecl d) (varDecl d) := by
  cases d with
  | none => exact .look
  | some d =>
    rw [varDecl, varDecl]
    apply Matches.visit
    obtain ⟨position, names, type, value⟩ := d
    rcases names with - | ⟨first, others⟩
    · exact .look
    · cases value with
      | none => exact .bind (matches_namesOf (first :: others)) fun _ => .pure
      | some value =>
        exact .bind (matches_nameOf first) fun _ => .bind (matches_expr value) fun _ =>
          .bind (matches_namesOf others) fun _ => .pure

theorem matches_varDecls (list : List (Option VarDecl)) :
    Matches (varDecls list) (varDecls list) := by
  induction list with
  | nil => exact .pure
  | cons d rest ih =>
    rw [varDecls, varDecls]
    exact .bind (matches_varDecl d) fun _ => .bind ih fun _ => .pure

theorem matches_constDecl (d : Option ConstDecl) : Matches (constDecl d) (constDecl d) := by
  cases d with
  | none => exact .look
  | some d =>
    rw [constDecl, constDecl]
    apply Matches.visit
    obtain ⟨position, name, type, value⟩ := d
    cases value with
    | none => exact .look
    | some value =>
      exact .bind (matches_nameOf name) fun _ => .bind (matches_expr value) fun _ => .pure

theorem matches_constDecls (list : List (Option ConstDecl)) :
    Matches (constDecls list) (constDecls list) := by
  induction list with
  | nil => exact .pure
  | cons d rest ih =>
    rw [constDecls, constDecls]
    exact .bind (matches_constDecl d) fun _ => .bind ih fun _ => .pure

theorem matches_paramGroup (group : Option ParamGroup) :
    Matches (paramGroup group) (paramGroup group) := by
  cases group with
  | none => exact .look
  | some group => exact .visit (matches_namesOf group.names)

theorem matches_paramGroups (list : List (Option ParamGroup)) :
    Matches (paramGroups list) (paramGroups list) := by
  induction list with
  | nil => exact .pure
  | cons group rest ih =>
    rw [paramGroups, paramGroups]
    exact .bind (matches_paramGroup group) fun _ => .bind ih fun _ => .pure

mutual

/-- A declaration is walked with the stack as it is generated with the nodes on the stack. -/
theorem matches_decl : ∀ d : Decl, Matches (decl d) (decl d)
  | .var d => by
    rw [decl, decl]
    exact matches_varDecl (some d)
  | .vars _ list => by
    rw [decl, decl]
    exact .visit (matches_varDecls list)
  | .const d => by
    rw [decl, decl]
    exact matches_constDecl (some d)
  | .consts _ list => by
    rw [decl, decl]
    exact .visit (matches_constDecls list)
  | .header _ => by
    rw [decl, decl]
    exact .pure
  | .routine r => by
    rw [decl, decl]
    exact .bind (matches_routine r) fun _ => .pure

theorem matches_routine : ∀ r : Routine, Matches (routine r) (routine r)
  | ⟨_, _, name, params, body, _⟩ => by
    rw [routine, routine]
    exact .visit (.bind (matches_nameOf name) fun _ => .bind (matches_paramGroups params) fun _ =>
      .bind (matches_block? body) fun _ => .pure)

theorem matches_block : ∀ b : Block, Matches (block b) (block b)
  | ⟨_, list, body⟩ => by
    rw [block, block]
    refine .visit (.bind .look fun _ => .bind (matches_decls list) fun _ => ?_)
    cases body with
    | none => exact .pure
    | some body => exact .bind (matches_compound body) fun _ => .pure

theorem matches_block? : ∀ value : Option Block, Matches (block? value) (block? value)
  | none => by
    rw [block?, block?]
    exact .look
  | some b => by
    rw [block?, block?]
    exact matches_block b

theorem matches_decl? : ∀ value : Option Decl, Matches (decl? value) (decl? value)
  | none => by
    rw [decl?, decl?]
    exact .look
  | some d => by
    rw [decl?, decl?]
    exact matches_decl d

theorem matches_decls : ∀ list : List (Option Decl), Matches (decls list) (decls list)
  | [] => by
    rw [decls, decls]
    exact .pure
  | value :: rest => by
    rw [decls, decls]
    exact .bind (matches_decl? value) fun _ => .bind (matches_decls rest) fun _ => .pure

end

theorem matches_unitPart (node : UnitPart → Node) (part : Option UnitPart) :
    Matches (unitPart node part) (unitPart node part) := by
  cases part with
  | none => exact .pure
  | some part => exact .visit (matches_decls part.decls)

theorem matches_file (f : File) : Matches (file f) (file f) := by
  cases f with
  | program f => exact .bind (matches_block? f.block) fun _ => .pure
  | unit f =>
    exact .bind (matches_unitPart _ f.interfacePart) fun _ =>
      .bind (matches_unitPart _ f.implementationPart) fun _ => .pure

/-- The walk through a file gives what is handed down from the file. -/
theorem script_eq (f : File) : script f = answer (.root f.node) (file f) :=
  congrArg Prod.fst (matches_file f (.root f.node))

end Generation

/-! ### The functions of the generator -/

/-- The functions of the generator, each for what it is called for, however the visited nodes
are kept. -/
inductive Emitter : {α : Type} → (∀ (m : Type → Type) [Visiting m], m α) → Prop where
  | nameOf (ident : Option Ident) : Emitter fun _ _ => Generation.nameOf ident
  | namesOf (idents : List (Option Ident)) : Emitter fun _ _ => Generation.namesOf idents
  | callTarget (target : Option Ident) : Emitter fun _ _ => Generation.callTarget target
  | assignmentTarget (target : Option Ident) :
      Emitter fun _ _ => Generation.assignmentTarget target
  | expr (e : Expr) : Emitter fun _ _ => Generation.expr e
  | expr? (value : Option Expr) : Emitter fun _ _ => Generation.expr? value
  | exprs (list : List (Option Expr)) : Emitter fun _ _ => Generation.exprs list
  | setElement (value : Option Element) : Emitter fun _ _ => Generation.setElement value
  | setElements (list : List (Option Element)) : Emitter fun _ _ => Generation.setElements list
  | stmt (s : Stmt) : Emitter fun _ _ => Generation.stmt s
  | branch (value : Option Stmt) : Emitter fun _ _ => Generation.branch value
  | compound (value : Compound) : Emitter fun _ _ => Generation.compound value
  | stmt? (value : Option Stmt) : Emitter fun _ _ => Generation.stmt? value
  | stmts (list : List (Option Stmt)) : Emitter fun _ _ => Generation.stmts list
  | varDecl (d : Option VarDecl) : Emitter fun _ _ => Generation.varDecl d
  | varDecls (list : List (Option VarDecl)) : Emitter fun _ _ => Generation.varDecls list
  | constDecl (d : Option ConstDecl) : Emitter fun _ _ => Generation.constDecl d
  | constDecls (list : List (Option ConstDecl)) : Emitter fun _ _ => Generation.constDecls list
  | paramGroup (group : Option ParamGroup) : Emitter fun _ _ => Generation.paramGroup group
  | paramGroups (list : List (Option ParamGroup)) : Emitter fun _ _ => Generation.paramGroups list
  | decl (d : Decl) : Emitter fun _ _ => Generation.decl d
  | routine (r : Routine) : Emitter fun _ _ => Generation.routine r
  | block (b : Block) : Emitter fun _ _ => Generation.block b
  | block? (value : Option Block) : Emitter fun _ _ => Generation.block? value
  | decl? (value : Option Decl) : Emitter fun _ _ => Generation.decl? value
  | decls (list : List (Option Decl)) : Emitter fun _ _ => Generation.decls list
  | unitPart (node : UnitPart → Node) (part : Option UnitPart) :
      Emitter fun _ _ => Generation.unitPart node part
  | file (f : File) : Emitter fun _ _ => Generation.file f

/-- Every function of the generator leaves the stack as it was. -/
theorem Emitter.matches {α : Type} {emit : ∀ (m : Type → Type) [Visiting m], m α}
    (emitter : Emitter emit) : Walk.Matches (emit Walk) (emit Descent) := by
  cases emitter with
  | nameOf ident => exact Generation.matches_nameOf ident
  | namesOf idents => exact Generation.matches_namesOf idents
  | callTarget target => exact Generation.matches_callTarget target
  | assignmentTarget target => exact Generation.matches_assignmentTarget target
  | expr e => exact Generation.matches_expr e
  | expr? value => exact Generation.matches_expr? value
  | exprs list => exact Generation.matches_exprs list
  | setElement value => exact Generation.matches_setElement value
  | setElements list => exact Generation.matches_setElements list
  | stmt s => exact Generation.matches_stmt s
  | branch value => exact Generation.matches_branch value
  | compound value => exact Generation.matches_compound value
  | stmt? value => exact Generation.matches_stmt? value
  | stmts list => exact Generation.matches_stmts list
  | varDecl d => exact Generation.matches_varDecl d
  | varDecls list => exact Generation.matches_varDecls list
  | constDecl d => exact Generation.matches_constDecl d
  | constDecls list => exact Generation.matches_constDecls list
  | paramGroup group => exact Generation.matches_paramGroup group
  | paramGroups list => exact Generation.matches_paramGroups list
  | decl d => exact Generation.matches_decl d
  | routine r => exact Generation.matches_routine r
  | block b => exact Generation.matches_block b
  | block? value => exact Generation.matches_block? value
  | decl? value => exact Generation.matches_decl? value
  | decls list => exact Generation.matches_decls list
  | unitPart node part => exact Generation.matches_unitPart node part
  | file f => exact Generation.matches_file f

end PascalCompiler
