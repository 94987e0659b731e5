import PascalCompiler.Proofs.Resolution.Detached
import PascalCompiler.Proofs.Tree.WellFormed

/-!
# Taking data out of a tree

Two sorts of data in a tree can be taken out without touching what it says: the data that is
kept for diagnostics, and the scopes that name resolution attaches. The former are the
positions of all nodes, the types of variables, constants, parameters and results, headings,
uses clauses, comments, and the parameters of forward headers. An erasure takes out one of
the sorts, or both. Kinds, names, operators and values stay, and so do the gaps of lists.

## Main definitions

* `Expr.relocate`, `Stmt.relocate`: expressions and statements with other positions
* `Erasure`: the sorts of data to take out
* `Erasure.file`, `Erasure.node`: files and nodes without them
* `Erasure.context`, `Erasure.error`: the same for visited nodes and for errors

## Main results

* `Erasure.kind_node`, `Erasure.trace_context`: the kinds of nodes are kept
* `Erasure.scope?_context`: the scopes of visited nodes are kept or all lost
* `Erasure.file_onlyScopes`: taking out scopes is detaching them
* `File.detach_eq_self`: nothing is detached if there are none
-/

namespace PascalCompiler

/-! ### Positions -/

/-- An identifier with another position. -/
def Ident.relocate (move : Position → Position) (ident : Ident) : Ident :=
  ⟨move ident.position, ident.name⟩

/-- A type with other positions. -/
def TypeRef.relocate (move : Position → Position) : TypeRef → TypeRef
  | .inbuilt position name => .inbuilt (move position) name
  | .named position name => .named (move position) (name.map (Ident.relocate move))

mutual

/-- An expression with other positions. -/
def Expr.relocate (move : Position → Position) : Expr → Expr
  | .text position value => .text (move position) value
  | .control position code => .control (move position) code
  | .integer position value => .integer (move position) value
  | .parens position inner => .parens (move position) (Expr.relocate? move inner)
  | .binary position op left right =>
    .binary (move position) op (Expr.relocate? move left) (Expr.relocate? move right)
  | .call position target args =>
    .call (move position) (target.map (Ident.relocate move)) (Expr.relocateAll move args)
  | .setOf position elements => .setOf (move position) (Element.relocateAll move elements)

/-- An expression that may be absent, with other positions. -/
def Expr.relocate? (move : Position → Position) : Option Expr → Option Expr
  | none => none
  | some e => some (Expr.relocate move e)

/-- A list of expressions with other positions. -/
def Expr.relocateAll (move : Position → Position) : List (Option Expr) → List (Option Expr)
  | [] => []
  | e :: rest => Expr.relocate? move e :: Expr.relocateAll move rest

/-- An element of a set constructor with other positions. -/
def Element.relocate? (move : Position → Position) : Option Element → Option Element
  | none => none
  | some (.expr e) => some (.expr (Expr.relocate move e))
  | some (.range range) => some (.range (Range.relocate move range))

/-- A list of set elements with other positions. -/
def Element.relocateAll (move : Position → Position) :
    List (Option Element) → List (Option Element)
  | [] => []
  | e :: rest => Element.relocate? move e :: Element.relocateAll move rest

/-- A range with other positions. -/
def Range.relocate (move : Position → Position) : Range → Range
  | ⟨position, start, stop⟩ =>
    ⟨move position, Expr.relocate? move start, Expr.relocate? move stop⟩

end

mutual

/-- A statement with other positions. -/
def Stmt.relocate (move : Position → Position) : Stmt → Stmt
  | .assign position target op source =>
    .assign (move position) (target.map (Ident.relocate move)) op (Expr.relocate? move source)
  | .call position target args =>
    .call (move position) (target.map (Ident.relocate move)) (Expr.relocateAll move args)
  | .compound value => .compound (Compound.relocate move value)
  | .ifThen position condition onTrue onFalse =>
    .ifThen (move position) (Expr.relocate? move condition) (Stmt.relocate? move onTrue)
      (Stmt.relocate? move onFalse)
  | .tryExcept position body handlers =>
    .tryExcept (move position) (Stmt.relocateAll move body) (Handlers.relocate? move handlers)
  | .tryFinally position body cleanup =>
    .tryFinally (move position) (Stmt.relocateAll move body) (Stmt.relocateAll move cleanup)

/-- A statement that may be absent, with other positions. -/
def Stmt.relocate? (move : Position → Position) : Option Stmt → Option Stmt
  | none => none
  | some s => some (Stmt.relocate move s)

/-- A list of statements with other positions. -/
def Stmt.relocateAll (move : Position → Position) : List (Option Stmt) → List (Option Stmt)
  | [] => []
  | s :: rest => Stmt.relocate? move s :: Stmt.relocateAll move rest

/-- A compound statement with other positions. -/
def Compound.relocate (move : Position → Position) : Compound → Compound
  | ⟨position, body⟩ => ⟨move position, Stmt.relocateAll move body⟩

/-- What follows `except`, with other positions. -/
def Handlers.relocate? (move : Position → Position) : Option Handlers → Option Handlers
  | none => none
  | some (.all body) => some (.all (Stmt.relocateAll move body))
  | some (.clause clause) => some (.clause (HandlerClause.relocate move clause))

/-- A handler clause with other positions. -/
def HandlerClause.relocate (move : Position → Position) : HandlerClause → HandlerClause
  | ⟨position, name, type, body⟩ =>
    ⟨move position, name.map (Ident.relocate move), type.map (TypeRef.relocate move),
      Stmt.relocate? move body⟩

end

/-! ### Positions that stay -/

theorem Ident.relocate_id : Ident.relocate id = id := rfl

theorem TypeRef.relocate_id : TypeRef.relocate id = id := by
  funext type
  cases type with
  | inbuilt position name => rfl
  | named position name => rw [relocate, Ident.relocate_id, Option.map_id, id, id, id]

mutual

/-- An expression whose positions stay is as it was. -/
theorem Expr.relocate_id : ∀ e : Expr, e.relocate id = e
  | .text _ _ | .control _ _ | .integer _ _ => by rw [Expr.relocate, id]
  | .parens _ inner => by rw [Expr.relocate, id, Expr.relocate?_id inner]
  | .binary _ _ left right => by
    rw [Expr.relocate, id, Expr.relocate?_id left, Expr.relocate?_id right]
  | .call _ target args => by
    rw [Expr.relocate, Ident.relocate_id, Option.map_id, Expr.relocateAll_id args, id, id]
  | .setOf _ elements => by rw [Expr.relocate, id, Element.relocateAll_id elements]

theorem Expr.relocate?_id : ∀ e : Option Expr, Expr.relocate? id e = e
  | none => by rw [Expr.relocate?]
  | some e => by rw [Expr.relocate?, Expr.relocate_id e]

theorem Expr.relocateAll_id : ∀ list : List (Option Expr), Expr.relocateAll id list = list
  | [] => by rw [Expr.relocateAll]
  | e :: rest => by rw [Expr.relocateAll, Expr.relocate?_id e, Expr.relocateAll_id rest]

theorem Element.relocate?_id : ∀ e : Option Element, Element.relocate? id e = e
  | none => by rw [Element.relocate?]
  | some (.expr e) => by rw [Element.relocate?, Expr.relocate_id e]
  | some (.range range) => by rw [Element.relocate?, Range.relocate_id range]

theorem Element.relocateAll_id :
    ∀ list : List (Option Element), Element.relocateAll id list = list
  | [] => by rw [Element.relocateAll]
  | e :: rest => by rw [Element.relocateAll, Element.relocate?_id e, Element.relocateAll_id rest]

theorem Range.relocate_id : ∀ range : Range, range.relocate id = range
  | ⟨_, start, stop⟩ => by
    rw [Range.relocate, id, Expr.relocate?_id start, Expr.relocate?_id stop]

end

mutual

/-- A statement whose positions stay is as it was. -/
theorem Stmt.relocate_id : ∀ s : Stmt, s.relocate id = s
  | .assign _ target _ source => by
    rw [Stmt.relocate, Ident.relocate_id, Option.map_id, Expr.relocate?_id source, id, id]
  | .call _ target args => by
    rw [Stmt.relocate, Ident.relocate_id, Option.map_id, Expr.relocateAll_id args, id, id]
  | .compound value => by rw [Stmt.relocate, Compound.relocate_id value]
  | .ifThen _ condition onTrue onFalse => by
    rw [Stmt.relocate, id, Expr.relocate?_id condition, Stmt.relocate?_id onTrue,
      Stmt.relocate?_id onFalse]
  | .tryExcept _ body handlers => by
    rw [Stmt.relocate, id, Stmt.relocateAll_id body, Handlers.relocate?_id handlers]
  | .tryFinally _ body cleanup => by
    rw [Stmt.relocate, id, Stmt.relocateAll_id body, Stmt.relocateAll_id cleanup]

theorem Stmt.relocate?_id : ∀ s : Option Stmt, Stmt.relocate? id s = s
  | none => by rw [Stmt.relocate?]
  | some s => by rw [Stmt.relocate?, Stmt.relocate_id s]

theorem Stmt.relocateAll_id : ∀ list : List (Option Stmt), Stmt.relocateAll id list = list
  | [] => by rw [Stmt.relocateAll]
  | s :: rest => by rw [Stmt.relocateAll, Stmt.relocate?_id s, Stmt.relocateAll_id rest]

theorem Compound.relocate_id : ∀ value : Compound, value.relocate id = value
  | ⟨_, body⟩ => by rw [Compound.relocate, id, Stmt.relocateAll_id body]

theorem Handlers.relocate?_id :
    ∀ handlers : Option Handlers, Handlers.relocate? id handlers = handlers
  | none => by rw [Handlers.relocate?]
  | some (.all body) => by rw [Handlers.relocate?, Stmt.relocateAll_id body]
  | some (.clause clause) => by rw [Handlers.relocate?, HandlerClause.relocate_id clause]

theorem HandlerClause.relocate_id : ∀ clause : HandlerClause, clause.relocate id = clause
  | ⟨_, name, type, body⟩ => by
    rw [HandlerClause.relocate, Ident.relocate_id, TypeRef.relocate_id, Option.map_id,
      Option.map_id, Stmt.relocate?_id body, id, id, id]

end

/-! ### Erasures -/

/-- The sorts of data that are taken out of a tree. -/
structure Erasure where
  /-- Positions, declared types, headings, uses clauses, comments and the parameters of forward
  headers. -/
  diagnostics : Bool
  /-- The scopes that name resolution has attached. -/
  scopes : Bool

namespace Erasure

/-- Takes out all that can be. -/
def all : Erasure := ⟨true, true⟩

/-- Takes out scopes and nothing else. -/
def onlyScopes : Erasure := ⟨false, true⟩

/-- Leaves the scopes in. -/
def keepScopes (e : Erasure) : Erasure :=
  { e with scopes := false }

variable (e : Erasure)

/-- A value that is there for diagnostics, or the blank one in its place. -/
def diagnostic {α : Type} (blank value : α) : α :=
  if e.diagnostics then blank else value

/-- The position that is left of one. -/
def position (place : Position) : Position :=
  e.diagnostic .unknown place

/-- The scope that is left of one. -/
def scope (attached : Option Scope) : Option Scope :=
  if e.scopes then none else attached

/-- What is left of an identifier. -/
def ident (i : Ident) : Ident :=
  i.relocate e.position

/-- What is left of a list of identifiers. -/
def idents (list : List (Option Ident)) : List (Option Ident) :=
  list.map (·.map e.ident)

/-- What is left of a variable declaration. -/
def varDecl (d : VarDecl) : VarDecl :=
  ⟨e.position d.position, e.idents d.names, e.diagnostic none d.type,
    Expr.relocate? e.position d.value⟩

/-- What is left of a constant declaration. -/
def constDecl (d : ConstDecl) : ConstDecl :=
  ⟨e.position d.position, d.name.map e.ident, e.diagnostic none d.type,
    Expr.relocate? e.position d.value⟩

/-- What is left of a group of parameters. -/
def paramGroup (group : ParamGroup) : ParamGroup :=
  ⟨e.position group.position, e.idents group.names, e.diagnostic none group.type⟩

/-- What is left of a parameter list. -/
def params (list : List (Option ParamGroup)) : List (Option ParamGroup) :=
  list.map (·.map e.paramGroup)

/-- What is left of the kind of a routine. -/
def routineKind : RoutineKind → RoutineKind
  | .procedure => .procedure
  | .function result => .function (e.diagnostic none result)

/-- What is left of a forward header. -/
def header (h : Header) : Header :=
  ⟨e.position h.position, e.routineKind h.kind, h.name.map e.ident, e.diagnostic [] h.params⟩

mutual

/-- What is left of a declaration. -/
def decl : Decl → Decl
  | .var d => .var (e.varDecl d)
  | .vars place list => .vars (e.position place) (list.map (·.map e.varDecl))
  | .const d => .const (e.constDecl d)
  | .consts place list => .consts (e.position place) (list.map (·.map e.constDecl))
  | .header h => .header (e.header h)
  | .routine r => .routine (routine r)

/-- What is left of a routine. -/
def routine : Routine → Routine
  | ⟨place, kind, name, list, body, attached⟩ =>
    ⟨e.position place, e.routineKind kind, name.map e.ident, e.params list, block? body,
      e.scope attached⟩

/-- What is left of a block. -/
def block : Block → Block
  | ⟨place, list, body⟩ =>
    ⟨e.position place, decls list, body.map (Compound.relocate e.position)⟩

/-- What is left of a block that may be absent. -/
def block? : Option Block → Option Block
  | none => none
  | some b => some (block b)

/-- What is left of a declaration that may be absent. -/
def decl? : Option Decl → Option Decl
  | none => none
  | some d => some (decl d)

/-- What is left of a list of declarations. -/
def decls : List (Option Decl) → List (Option Decl)
  | [] => []
  | d :: rest => decl? d :: decls rest

end

/-- What is left of a part of a unit. -/
def unitPart (part : UnitPart) : UnitPart :=
  ⟨e.position part.position, e.diagnostic none part.uses, e.decls part.decls⟩

/-- What is left of a program. -/
def program (f : ProgramFile) : ProgramFile :=
  ⟨e.position f.position, e.diagnostic none f.heading, e.diagnostic none f.uses, e.block? f.block,
    e.diagnostic {} f.comments, e.scope f.scope⟩

/-- What is left of a unit. -/
def unit (f : UnitFile) : UnitFile :=
  ⟨e.position f.position, e.diagnostic none f.heading, f.interfacePart.map e.unitPart,
    f.implementationPart.map e.unitPart, e.scope f.scope⟩

/-- What is left of a file. -/
def file : File → File
  | .program f => .program (e.program f)
  | .unit f => .unit (e.unit f)

/-- What is left of a node. -/
def node : Node → Node
  | .program f => .program (e.program f)
  | .unit f => .unit (e.unit f)
  | .programHeader h => .programHeader ⟨e.position h.position, h.name.map e.ident⟩
  | .unitHeader h => .unitHeader ⟨e.position h.position, h.name.map e.ident⟩
  | .interfacePart part => .interfacePart (e.unitPart part)
  | .implementationPart part => .implementationPart (e.unitPart part)
  | .uses clause => .uses ⟨e.position clause.position, e.idents clause.units⟩
  | .comment c => .comment ⟨e.position c.position, c.content⟩
  | .ident i => .ident (e.ident i)
  | .type t => .type (t.relocate e.position)
  | .param group => .param (e.paramGroup group)
  | .block b => .block (e.block b)
  | .decl d => .decl (e.decl d)
  | .stmt s => .stmt (s.relocate e.position)
  | .handler clause => .handler (clause.relocate e.position)
  | .expr x => .expr (x.relocate e.position)
  | .range range => .range (range.relocate e.position)

/-- The visited nodes, with what is left of them. -/
def context (visited : Context) : Context :=
  ⟨visited.path.map e.node⟩

/-- An error with what is left of its node. -/
def error : GenerationError → GenerationError
  | .unsupported culprit trace reason => .unsupported (culprit.map e.node) trace reason
  | .invalidValue culprit trace reason => .invalidValue (culprit.map e.node) trace reason
  | .noScope trace => .noScope trace

/-! ### What is kept -/

theorem kind_node (n : Node) : (e.node n).kind = n.kind := by
  cases n with
  | type t => cases t <;> rfl
  | decl d =>
    rcases d with ⟨d⟩ | ⟨place, list⟩ | ⟨d⟩ | ⟨place, list⟩ | ⟨place, kind, name, list⟩ |
      ⟨place, kind, name, list, body, attached⟩
    any_goals rfl
    · cases kind <;> rfl
    · cases kind <;> rfl
  | stmt s => cases s <;> rfl
  | expr x => cases x <;> rfl
  | _ => rfl

theorem scope_node (n : Node) : (e.node n).scope = e.scope n.scope := by
  have none_eq : none = e.scope none := by rw [scope, ite_self]
  cases n with
  | program f | unit f => rfl
  | decl d =>
    cases d with
    | routine r =>
      cases r
      rfl
    | _ => exact none_eq
  | _ => exact none_eq

theorem position_node (n : Node) : (e.node n).position = e.position n.position := by
  cases n with
  | type t | expr t => cases t <;> rfl
  | block b | handler b | range b =>
    cases b
    rfl
  | decl d =>
    cases d with
    | routine r =>
      cases r
      rfl
    | _ => rfl
  | stmt s =>
    cases s with
    | compound value =>
      cases value
      rfl
    | _ => rfl
  | _ => rfl

theorem trace_context (visited : Context) : (e.context visited).trace = visited.trace := by
  rw [Context.trace, Context.trace, context, ← List.map_reverse, List.map_map]
  congr 1
  funext n
  exact e.kind_node n

theorem current?_context (visited : Context) :
    (e.context visited).current? = visited.current?.map e.node :=
  List.head?_map

theorem parentIs_context (visited : Context) (kind : Kind) :
    (e.context visited).parentIs kind = visited.parentIs kind := by
  obtain ⟨- | ⟨n, - | ⟨parent, outer⟩⟩⟩ := visited
  · rfl
  · rfl
  · change decide ((e.node parent).kind = kind) = decide (parent.kind = kind)
    rw [e.kind_node]

/-- The scope of the visited nodes is kept, or all scopes are lost. -/
theorem scope?_context (visited : Context) :
    (e.context visited).scope? = e.scope visited.scope? := by
  obtain ⟨path⟩ := visited
  induction path with
  | nil =>
    rw [scope]
    split <;> rfl
  | cons n outer ih =>
    -- the innermost scope counts on both sides, if there is one
    change List.findSome? Node.scope (e.node n :: outer.map e.node) =
      e.scope (List.findSome? Node.scope (n :: outer))
    change List.findSome? Node.scope (outer.map e.node) =
      e.scope (List.findSome? Node.scope outer) at ih
    rw [List.findSome?_cons, List.findSome?_cons, scope_node, ih]
    cases n.scope <;> cases same : e.scopes <;> simp [scope, same]

/-! ### Only scopes -/

section OnlyScopes

open Resolution

theorem position_onlyScopes : onlyScopes.position = id := rfl

theorem ident_onlyScopes : onlyScopes.ident = id := rfl

theorem idents_onlyScopes (list : List (Option Ident)) : onlyScopes.idents list = list := by
  rw [idents, ident_onlyScopes, Option.map_id_fun, List.map_id]

theorem varDecl_onlyScopes : onlyScopes.varDecl = id := by
  funext d
  rw [varDecl, idents_onlyScopes, position_onlyScopes, Expr.relocate?_id]
  rfl

theorem constDecl_onlyScopes : onlyScopes.constDecl = id := by
  funext d
  rw [constDecl, ident_onlyScopes, Option.map_id, position_onlyScopes, Expr.relocate?_id]
  rfl

theorem paramGroup_onlyScopes : onlyScopes.paramGroup = id := by
  funext group
  rw [paramGroup, idents_onlyScopes]
  rfl

theorem params_onlyScopes (list : List (Option ParamGroup)) : onlyScopes.params list = list := by
  rw [params, paramGroup_onlyScopes, Option.map_id_fun, List.map_id]

theorem routineKind_onlyScopes (kind : RoutineKind) : onlyScopes.routineKind kind = kind := by
  cases kind <;> rfl

theorem header_onlyScopes (h : Header) : onlyScopes.header h = h := by
  rw [header, routineKind_onlyScopes, ident_onlyScopes, Option.map_id]
  rfl

mutual

/-- Taking the scopes out of a declaration is detaching them. -/
theorem decl_onlyScopes : ∀ d : Decl, onlyScopes.decl d = detachDecl d
  | .var d => by rw [decl, detachDecl, varDecl_onlyScopes, id]
  | .vars _ list => by
    rw [decl, detachDecl, varDecl_onlyScopes, Option.map_id_fun, List.map_id, position_onlyScopes,
      id]
  | .const d => by rw [decl, detachDecl, constDecl_onlyScopes, id]
  | .consts _ list => by
    rw [decl, detachDecl, constDecl_onlyScopes, Option.map_id_fun, List.map_id,
      position_onlyScopes, id]
  | .header h => by rw [decl, detachDecl, header_onlyScopes]
  | .routine r => by rw [decl, detachDecl, routine_onlyScopes r]

theorem routine_onlyScopes : ∀ r : Routine, onlyScopes.routine r = detachRoutine r
  | ⟨_, kind, name, list, body, attached⟩ => by
    rw [routine, detachRoutine, routineKind_onlyScopes, ident_onlyScopes, params_onlyScopes,
      block?_onlyScopes body, Option.map_id]
    rfl

theorem block?_onlyScopes : ∀ body : Option Block, onlyScopes.block? body = detachBlock? body
  | none => by rw [block?, detachBlock?]
  | some ⟨_, list, body⟩ => by
    rw [block?, block, detachBlock?, decls_onlyScopes list, position_onlyScopes,
      show Compound.relocate id = id from funext Compound.relocate_id, Option.map_id]
    rfl

theorem decls_onlyScopes :
    ∀ list : List (Option Decl), onlyScopes.decls list = detachDecls list
  | [] => by rw [decls, detachDecls]
  | none :: rest => by rw [decls, decl?, detachDecls, decls_onlyScopes rest]
  | some d :: rest => by
    rw [decls, decl?, detachDecls, decl_onlyScopes d, decls_onlyScopes rest]

end

theorem unitPart_onlyScopes : onlyScopes.unitPart = detachPart := by
  funext part
  rw [unitPart, detachPart, decls_onlyScopes]
  rfl

/-- Taking the scopes out of a file is detaching them. -/
theorem file_onlyScopes (f : File) : onlyScopes.file f = f.detach := by
  cases f with
  | program f =>
    rw [file, program, block?_onlyScopes]
    rfl
  | unit f =>
    rw [file, unit, unitPart_onlyScopes]
    rfl

end OnlyScopes

end Erasure

/-! ### Trees without scopes -/

/-- No node of the tree carries a scope. -/
def Node.Bare (root : Node) : Prop :=
  ∀ node, root.Within node → node.scope = none

section Bare

open Resolution

variable {root : Node}

mutual

/-- Nothing is detached from a declaration in a tree without scopes. -/
theorem Node.Bare.detachDecl_eq_self (bare : root.Bare) :
    ∀ d : Decl, root.Within (.decl d) → detachDecl d = d
  | .var _, _ | .vars .., _ | .const _, _ | .consts .., _ | .header _, _ => by rw [detachDecl]
  | .routine r, within => by rw [detachDecl, Node.Bare.detachRoutine_eq_self bare r within]

theorem Node.Bare.detachRoutine_eq_self (bare : root.Bare) :
    ∀ r : Routine, root.Within (.decl (.routine r)) → detachRoutine r = r
  | ⟨position, kind, name, list, body, attached⟩, within => by
    have isBlock : ∀ b ∈ body, root.Within (.block b) :=
      within.of_child (.tail _ (.tail _ (.head _)))
    have unscoped : attached = none := bare _ within
    rw [detachRoutine, Node.Bare.detachBlock?_eq_self bare body isBlock, unscoped]

theorem Node.Bare.detachBlock?_eq_self (bare : root.Bare) :
    ∀ body : Option Block, (∀ b ∈ body, root.Within (.block b)) → detachBlock? body = body
  | none, _ => by rw [detachBlock?]
  | some ⟨position, list, body⟩, within => by
    have areDecls : ∀ d ∈ list, root.Holds .decl d := (within _ rfl).holds_of_mem (.head _)
    rw [detachBlock?, Node.Bare.detachDecls_eq_self bare list areDecls]

theorem Node.Bare.detachDecls_eq_self (bare : root.Bare) :
    ∀ list : List (Option Decl), (∀ d ∈ list, root.Holds .decl d) → detachDecls list = list
  | [], _ => by rw [detachDecls]
  | none :: rest, holds => by
    rw [detachDecls, Node.Bare.detachDecls_eq_self bare rest (List.forall_mem_cons.mp holds).2]
  | some d :: rest, holds => by
    obtain ⟨here, others⟩ := List.forall_mem_cons.mp holds
    rw [detachDecls, Node.Bare.detachDecl_eq_self bare d (here.within d rfl),
      Node.Bare.detachDecls_eq_self bare rest others]

end

theorem Node.Bare.map_detachPart_eq_self (bare : root.Bare) (part : Option UnitPart)
    (holds : ∀ p ∈ part, ∀ d ∈ p.decls, root.Holds .decl d) : part.map detachPart = part := by
  cases part with
  | none => rfl
  | some p => rw [Option.map_some, detachPart, bare.detachDecls_eq_self p.decls (holds p rfl)]

/-- Nothing is detached from a file without scopes. -/
theorem File.detach_eq_self {file : File} (bare : file.node.Bare) : file.detach = file := by
  cases file with
  | program f =>
    have unscoped : f.scope = none := bare _ .root
    have isBlock : ∀ b ∈ f.block, (Node.program f).Within (.block b) :=
      Node.Within.root.of_child (.tail _ (.tail _ (.head _)))
    rw [detach, bare.detachBlock?_eq_self f.block isBlock, ← unscoped]
  | unit f =>
    have unscoped : f.scope = none := bare _ .root
    have isInterface : ∀ p ∈ f.interfacePart, (Node.unit f).Within (.interfacePart p) :=
      Node.Within.root.of_child (.tail _ (.head _))
    have isImplementation :
        ∀ p ∈ f.implementationPart, (Node.unit f).Within (.implementationPart p) :=
      Node.Within.root.of_child (.tail _ (.tail _ (.head _)))
    rw [detach,
      bare.map_detachPart_eq_self f.interfacePart fun p mem =>
        (isInterface p mem).holds_of_mem (.tail _ (.head _)),
      bare.map_detachPart_eq_self f.implementationPart fun p mem =>
        (isImplementation p mem).holds_of_mem (.tail _ (.head _)),
      ← unscoped]

end Bare

end PascalCompiler
