import PascalCompiler.Proofs.Lexical.Refinement
import PascalCompiler.Proofs.Tree.Everywhere

/-!
# Which files compile

Whether a file compiles is told node by node. Each node must have what its own text
needs: the names that are written, the parts that cannot be left out, an operator that
scripts have. No condition speaks of scopes, of what else the file declares, or of
where in the file the node is, with one exception: the parameters of a routine are
conditions on the routine, since those of a forward header are not looked at.

## Main definitions

* `Named`: an identifier is there and has a name
* `Node.Translatable`: a node has what its own text needs

## Main results

* `Lexical.isSome_expr`, `Lexical.isSome_stmt`, `Lexical.isSome_decl`: what has a text is what
  is translatable everywhere
* `File.exists_compile_iff`: the same for files
-/

namespace PascalCompiler

/-! ### What a node needs -/

/-- There is an identifier and it has a name. -/
def Named (ident : Option Ident) : Prop :=
  ∃ i ∈ ident, i.name ≠ ""

/-- The expression has its operands, its target and an operator that scripts have, and
it is in range. -/
def Expr.Translatable : Expr → Prop
  | .text .. | .integer .. => True
  | .control _ code => 0 ≤ code ∧ code ≤ 0x10FFFF
  | .parens _ inner => inner.isSome
  | .binary _ op left right =>
    Lowercase.lowerText op ∈ ["+", "=", "<>", "and"] ∧ left.isSome ∧ right.isSome
  | .call _ target args => Named target ∧ none ∉ args
  | .setOf _ elements => none ∉ elements ∧ ∀ range, some (.range range) ∉ elements

/-- What follows `except` is a list of statements, or nothing. -/
def Handlers.Listed : Option Handlers → Prop
  | none => True
  | some (.all body) => none ∉ body
  | some (.clause _) => False

/-- The statement has its target, its condition and all statements that it lists. Its
branches may be missing. -/
def Stmt.Translatable : Stmt → Prop
  | .assign _ target op source => Named target ∧ op = ":=" ∧ source.isSome
  | .call _ target args => Named target ∧ none ∉ args
  | .compound value => none ∉ value.body
  | .ifThen _ condition _ _ => condition.isSome
  | .tryExcept _ body handlers => none ∉ body ∧ Handlers.Listed handlers
  | .tryFinally _ body cleanup => none ∉ body ∧ none ∉ cleanup

/-- The declaration has its names and all that it lists, a constant its value and a
routine its parameters and its block. -/
def Decl.Translatable : Decl → Prop
  | .var d => d.names ≠ [] ∧ ∀ name ∈ d.names, Named name
  | .vars _ list => none ∉ list
  | .const d => Named d.name ∧ d.value.isSome
  | .consts _ list => none ∉ list
  | .header h => Named h.name
  | .routine r =>
    Named r.name ∧ (∀ group ∈ r.params, ∃ g ∈ group, ∀ name ∈ g.names, Named name) ∧
      r.block.isSome

/-- The node has what its own text needs. -/
def Node.Translatable : Node → Prop
  | .program file => file.block.isSome
  | .interfacePart part | .implementationPart part => none ∉ part.decls
  | .block value => none ∉ value.decls
  | .decl d => d.Translatable
  | .stmt s => s.Translatable
  | .expr e => e.Translatable
  | _ => True

/-! ### Nodes without conditions -/

/-- Is nothing needed anywhere under the node? -/
def Node.isFree : Node → Bool
  | .programHeader _ | .unitHeader _ | .uses _ | .comment _ | .ident _ | .type _ | .param _ => true
  | _ => false

theorem isFree_child (node : Node) (free : node.isFree) :
    ∀ part ∈ node.parts, ∀ child ∈ part.nodes, child.isFree := by
  cases node with
  | type t =>
    cases t <;> simp only [Node.parts, Component.mandatory, forall_mem_child,
      List.forall_mem_cons] <;> simp [Node.isFree, Component.nodes]
  | programHeader | unitHeader | uses | comment | ident | param =>
    simp only [Node.parts, Component.optional, forall_mem_child, forall_mem_listOf,
      List.forall_mem_cons]
    simp [Node.isFree, Component.nodes]
  | _ => cases free

theorem all_of_isFree {node : Node} (free : node.isFree) : node.All Node.Translatable := by
  refine all_of_closed free isFree_child fun node free => ?_
  cases node with
  | programHeader | unitHeader | uses | comment | ident | type | param => trivial
  | _ => cases free

theorem all_returnType (kind : RoutineKind) :
    ∀ part ∈ kind.parts, ∀ child ∈ part.nodes, child.All Node.Translatable := by
  cases kind with
  | procedure => exact List.forall_mem_nil _
  | function result =>
    simp only [RoutineKind.parts, List.forall_mem_singleton, Component.optional, forall_mem_child]
    exact fun t _ => all_of_isFree rfl

theorem all_comments (comments : ProgramComments) :
    ∀ child ∈ (Component.comments comments).nodes, child.All Node.Translatable := by
  intro child isChild
  obtain ⟨comment, -, rfl⟩ := List.mem_map.mp isChild
  exact all_of_isFree rfl

/-! ### Values that must be there -/

section Present

variable {α β : Type} {p : α → Prop} {value : Option α} {values : List (Option α)}

theorem exists_mem_iff_isSome : (∃ a ∈ value, p a) ↔ value.isSome ∧ ∀ a ∈ value, p a := by
  cases value <;> simp

theorem forall_exists_mem_iff :
    (∀ value ∈ values, ∃ a ∈ value, p a) ↔
      none ∉ values ∧ ∀ value ∈ values, ∀ a ∈ value, p a := by
  constructor
  · intro present
    refine ⟨fun gap => ?_, fun value mem a isSome => ?_⟩
    · obtain ⟨a, isSome, -⟩ := present none gap
      cases isSome
    · obtain ⟨b, same, holds⟩ := present value mem
      exact Option.mem_unique same isSome ▸ holds
  · rintro ⟨full, holds⟩ value mem
    cases value with
    | none => exact absurd mem full
    | some a => exact ⟨a, rfl, holds _ mem a rfl⟩

theorem isSome_bind {next : α → Option β} {q : Prop} (rest : ∀ a, (next a).isSome ↔ q) :
    (value >>= next).isSome ↔ value.isSome ∧ q := by
  cases value with
  | none => simp
  | some a => simpa using rest a

theorem isSome_bind_pure {f : α → β} : (value >>= fun a => pure (f a)).isSome ↔ value.isSome := by
  cases value <;> simp

end Present

namespace Lexical

/-! ### Names and operators -/

theorem isSome_nameOf {identifier : Option Ident} :
    (nameOf identifier).isSome ↔ Named identifier := by
  cases identifier <;> simp [nameOf, Named, Option.filter]

theorem isSome_ident {identifier : Option Ident} :
    (ident identifier).isSome ↔ Named identifier := by
  rw [ident, Option.isSome_map]
  exact isSome_nameOf

theorem isSome_idents (list : List (Option Ident)) :
    (idents list).isSome ↔ ∀ name ∈ list, Named name := by
  induction list with
  | nil => simp [idents]
  | cons first rest ih =>
    rw [idents, List.forall_mem_cons, isSome_bind fun _ => isSome_bind_pure.trans ih, isSome_ident]

theorem isSome_operator {op : String} :
    (operator op).isSome ↔ Lowercase.lowerText op ∈ ["+", "=", "<>", "and"] := by
  simp only [operator, List.lookup_isSome_iff]
  simp

/-! ### Expressions -/

mutual

/-- An expression has a text if it is translatable everywhere. -/
theorem isSome_expr (levels : List Level) :
    ∀ e : Expr, (expr levels e).isSome ↔ (Node.expr e).All Node.Translatable
  | .text position value => by
    rw [expr, all_text]
    simp [Node.Translatable, Expr.Translatable]
  | .control position code => by
    rw [expr, all_control]
    simp [Node.Translatable, Expr.Translatable]
  | .integer position value => by
    rw [expr, all_integer]
    simp [Node.Translatable, Expr.Translatable]
  | .parens position inner => by
    rw [expr, all_parens, isSome_bind_pure, isSome_expr? levels inner]
    exact exists_mem_iff_isSome
  | .binary position op left right => by
    rw [expr, all_binary, isSome_bind fun _ => isSome_bind fun _ => isSome_bind_pure,
      isSome_operator, isSome_expr? levels left, isSome_expr? levels right,
      exists_mem_iff_isSome, exists_mem_iff_isSome]
    constructor
    · rintro ⟨isOperator, ⟨hasLeft, left⟩, hasRight, right⟩
      exact ⟨⟨isOperator, hasLeft, hasRight⟩, left, right⟩
    · rintro ⟨⟨isOperator, hasLeft, hasRight⟩, left, right⟩
      exact ⟨isOperator, ⟨hasLeft, left⟩, hasRight, right⟩
  | .call position target args => by
    rw [expr, all_callExpr, isSome_bind fun _ => isSome_bind_pure, isSome_nameOf,
      isSome_exprs levels args, forall_exists_mem_iff]
    constructor
    · rintro ⟨named, full, args⟩
      exact ⟨⟨named, full⟩, fun _ _ => trivial, args⟩
    · rintro ⟨⟨named, full⟩, -, args⟩
      exact ⟨named, full, args⟩
  | .setOf position elements => by
    rw [expr, all_setOf, isSome_bind_pure, isSome_setElements levels elements,
      forall_exists_mem_iff]
    constructor
    · rintro ⟨full, each⟩
      refine ⟨⟨full, fun range mem => ?_⟩, fun value mem element isSome => ?_⟩
      · obtain ⟨e, isExpr, -⟩ := each _ mem _ rfl
        cases isExpr
      · obtain ⟨e, rfl, all⟩ := each value mem element isSome
        exact all
    · rintro ⟨⟨full, noRange⟩, each⟩
      refine ⟨full, fun value mem element isSome => ?_⟩
      cases element with
      | expr e => exact ⟨e, rfl, each value mem _ isSome⟩
      | range range => exact absurd (isSome ▸ mem) (noRange range)

theorem isSome_expr? (levels : List Level) :
    ∀ e : Option Expr, (expr? levels e).isSome ↔ ∃ a ∈ e, (Node.expr a).All Node.Translatable
  | none => by simp [expr?]
  | some e => by
    rw [expr?, isSome_expr levels e]
    simp

theorem isSome_exprs (levels : List Level) :
    ∀ list : List (Option Expr), (exprs levels list).isSome ↔
      ∀ value ∈ list, ∃ e ∈ value, (Node.expr e).All Node.Translatable
  | [] => by simp [exprs]
  | value :: rest => by
    rw [exprs, List.forall_mem_cons, isSome_bind fun _ => isSome_bind_pure,
      isSome_expr? levels value, isSome_exprs levels rest]

theorem isSome_setElements (levels : List Level) :
    ∀ list : List (Option Element), (setElements levels list).isSome ↔
      ∀ value ∈ list, ∃ element ∈ value, ∃ e, element = .expr e ∧
        (Node.expr e).All Node.Translatable
  | [] => by simp [setElements]
  | none :: rest => by simp [setElements, setElement]
  | some (.range range) :: rest => by simp [setElements, setElement]
  | some (.expr e) :: rest => by
    rw [setElements, setElement, List.forall_mem_cons, isSome_bind fun _ => isSome_bind_pure,
      isSome_expr levels e, isSome_setElements levels rest]
    simp

end

/-! ### Statements -/

mutual

/-- A statement has a text if it is translatable everywhere. -/
theorem isSome_stmt (levels : List Level) :
    ∀ s : Stmt, (stmt levels s).isSome ↔ (Node.stmt s).All Node.Translatable
  | .assign position target op source => by
    rw [stmt, all_assign]
    by_cases isAssign : op = ":="
    · rw [if_pos isAssign, isSome_bind fun _ => isSome_bind_pure, isSome_ident,
        isSome_expr? levels source, exists_mem_iff_isSome]
      constructor
      · rintro ⟨named, hasSource, source⟩
        exact ⟨⟨named, isAssign, hasSource⟩, fun _ _ => trivial, source⟩
      · rintro ⟨⟨named, -, hasSource⟩, -, source⟩
        exact ⟨named, hasSource, source⟩
    · rw [if_neg isAssign]
      exact iff_of_false Bool.false_ne_true fun all => isAssign all.1.2.1
  | .call position target args => by
    rw [stmt, all_callStmt, isSome_bind fun _ => isSome_bind_pure, isSome_nameOf,
      isSome_exprs levels args, forall_exists_mem_iff]
    constructor
    · rintro ⟨named, full, args⟩
      exact ⟨⟨named, full⟩, fun _ _ => trivial, args⟩
    · rintro ⟨⟨named, full⟩, -, args⟩
      exact ⟨named, full, args⟩
  | .compound value => by
    rw [stmt]
    exact isSome_compound levels false value
  | .ifThen position condition onTrue onFalse => by
    rw [stmt, all_ifThen, isSome_bind fun _ => isSome_bind fun _ => isSome_bind_pure,
      isSome_expr? levels condition, isSome_branch levels onTrue, isSome_branch levels onFalse,
      exists_mem_iff_isSome, and_assoc]
    rfl
  | .tryExcept position body handlers => by
    rw [stmt, all_tryExcept, isSome_bind fun _ => isSome_bind_pure, isSome_stmts levels body,
      isSome_handlers? levels handlers, forall_exists_mem_iff]
    constructor
    · rintro ⟨⟨full, body⟩, listed, handlers⟩
      exact ⟨⟨full, listed⟩, body, handlers⟩
    · rintro ⟨⟨full, listed⟩, body, handlers⟩
      exact ⟨⟨full, body⟩, listed, handlers⟩
  | .tryFinally position body cleanup => by
    rw [stmt, all_tryFinally, isSome_bind fun _ => isSome_bind_pure, isSome_stmts levels body,
      isSome_stmts levels cleanup, forall_exists_mem_iff, forall_exists_mem_iff]
    constructor
    · rintro ⟨⟨full, body⟩, full', cleanup⟩
      exact ⟨⟨full, full'⟩, body, cleanup⟩
    · rintro ⟨⟨full, full'⟩, body, cleanup⟩
      exact ⟨⟨full, body⟩, full', cleanup⟩

theorem isSome_branch (levels : List Level) {absent word : String} :
    ∀ s : Option Stmt, (branch levels absent word s).isSome ↔
      ∀ a ∈ s, (Node.stmt a).All Node.Translatable
  | none => by simp [branch]
  | some s => by
    rw [branch, isSome_bind_pure, isSome_stmt levels s]
    simp

theorem isSome_handlers? (levels : List Level) :
    ∀ handlers : Option Handlers, (handlers? levels handlers).isSome ↔
      Handlers.Listed handlers ∧
        ∀ child ∈ (Component.handlers handlers).nodes, child.All Node.Translatable
  | none => by simp [handlers?, Handlers.Listed, Component.handlers, Component.nodes]
  | some (.all body) => by
    rw [handlers?, isSome_stmts levels body, forall_exists_mem_iff, Component.handlers,
      forall_mem_listOf, Handlers.Listed]
  | some (.clause value) => by simp [handlers?, Handlers.Listed]

theorem isSome_compound (levels : List Level) (inBlock : Bool) :
    ∀ c : Compound, (compound levels inBlock c).isSome ↔
      (Node.stmt (.compound c)).All Node.Translatable
  | ⟨position, body⟩ => by
    rw [compound, all_compound, isSome_bind_pure, isSome_stmts levels body, forall_exists_mem_iff]
    rfl

theorem isSome_stmt? (levels : List Level) :
    ∀ s : Option Stmt, (stmt? levels s).isSome ↔ ∃ a ∈ s, (Node.stmt a).All Node.Translatable
  | none => by simp [stmt?]
  | some s => by
    rw [stmt?, isSome_stmt levels s]
    simp

theorem isSome_stmts (levels : List Level) :
    ∀ list : List (Option Stmt), (stmts levels list).isSome ↔
      ∀ value ∈ list, ∃ s ∈ value, (Node.stmt s).All Node.Translatable
  | [] => by simp [stmts]
  | value :: rest => by
    rw [stmts, List.forall_mem_cons, isSome_bind fun _ => isSome_bind_pure,
      isSome_stmt? levels value, isSome_stmts levels rest]

end

/-! ### Declarations -/

/-- A variable declaration has a text if it is translatable everywhere. The type is not
looked at. -/
theorem isSome_varDecl (levels : List Level) (value : Option VarDecl) :
    (varDecl levels value).isSome ↔ ∃ d ∈ value, (Node.decl (.var d)).All Node.Translatable := by
  cases value with
  | none => simp [varDecl]
  | some d =>
    obtain ⟨position, names, type, value⟩ := d
    have quiet : (Node.decl (.var ⟨position, names, type, value⟩)).All Node.Translatable ↔
        (names ≠ [] ∧ ∀ name ∈ names, Named name) ∧
          ∀ e ∈ value, (Node.expr e).All Node.Translatable := by
      rw [all_var]
      constructor
      · rintro ⟨named, -, -, value⟩
        exact ⟨named, value⟩
      · rintro ⟨named, value⟩
        exact ⟨named, fun _ _ _ _ => all_of_isFree rfl, fun _ _ => all_of_isFree rfl, value⟩
    simp only [Option.mem_some_iff, exists_eq_left', quiet]
    cases names with
    | nil => simp [varDecl]
    | cons first others =>
      cases value with
      | none =>
        rw [varDecl, isSome_bind_pure, isSome_idents]
        simp
      | some e =>
        rw [varDecl, isSome_bind fun _ => isSome_bind fun _ => isSome_bind_pure, isSome_ident,
          isSome_expr levels e, isSome_idents]
        simp [and_comm, and_left_comm]

theorem isSome_constDecl (levels : List Level) (value : Option ConstDecl) :
    (constDecl levels value).isSome ↔
      ∃ d ∈ value, (Node.decl (.const d)).All Node.Translatable := by
  cases value with
  | none => simp [constDecl]
  | some d =>
    rw [constDecl, isSome_bind fun _ => isSome_bind_pure, isSome_ident, isSome_expr? levels d.value,
      exists_mem_iff_isSome]
    simp only [Option.mem_some_iff, exists_eq_left', all_const]
    constructor
    · rintro ⟨named, hasValue, value⟩
      exact ⟨⟨named, hasValue⟩, fun _ _ => all_of_isFree rfl, fun _ _ => all_of_isFree rfl, value⟩
    · rintro ⟨⟨named, hasValue⟩, -, -, value⟩
      exact ⟨named, hasValue, value⟩

theorem isSome_concat {α : Type} {text : α → Option String} {p : α → Prop}
    (each : ∀ a, (text a).isSome ↔ p a) (list : List α) :
    (concat text list).isSome ↔ ∀ a ∈ list, p a := by
  induction list with
  | nil => simp [concat]
  | cons a rest ih =>
    rw [concat, List.forall_mem_cons, isSome_bind fun _ => isSome_bind_pure.trans ih, each]

theorem isSome_paramGroup (value : Option ParamGroup) :
    (paramGroup value).isSome ↔ ∃ g ∈ value, ∀ name ∈ g.names, Named name := by
  cases value with
  | none => simp [paramGroup]
  | some group =>
    rw [paramGroup, isSome_bind_pure, isSome_idents]
    simp

theorem isSome_paramGroups (list : List (Option ParamGroup)) :
    (paramGroups list).isSome ↔
      ∀ group ∈ list, ∃ g ∈ group, ∀ name ∈ g.names, Named name := by
  induction list with
  | nil => simp [paramGroups]
  | cons group rest ih =>
    rw [paramGroups, List.forall_mem_cons, isSome_bind fun _ => isSome_bind_pure.trans ih,
      isSome_paramGroup]

mutual

/-- A declaration has a text if it is translatable everywhere. -/
theorem isSome_decl (levels : List Level) :
    ∀ d : Decl, (decl levels d).isSome ↔ (Node.decl d).All Node.Translatable
  | .var d => by
    rw [decl, isSome_varDecl]
    simp
  | .vars position list => by
    rw [decl, isSome_concat (isSome_varDecl levels), forall_exists_mem_iff, all_vars]
    rfl
  | .const d => by
    rw [decl, isSome_constDecl]
    simp
  | .consts position list => by
    rw [decl, isSome_concat (isSome_constDecl levels), forall_exists_mem_iff, all_consts]
    rfl
  | .header h => by
    rw [decl, isSome_bind_pure, isSome_nameOf, all_header]
    -- the parameters of a header are not looked at
    constructor
    · intro named
      exact ⟨named, fun _ _ => all_of_isFree rfl, fun _ _ _ _ => all_of_isFree rfl,
        all_returnType h.kind⟩
    · exact fun all => all.1
  | .routine r => by
    rw [decl]
    exact isSome_routine levels r

theorem isSome_routine (levels : List Level) :
    ∀ r : Routine, (routine levels r).isSome ↔ (Node.decl (.routine r)).All Node.Translatable
  | ⟨position, kind, name, params, body, scope⟩ => by
    rw [routine, all_routine, isSome_bind fun _ => isSome_bind fun _ => isSome_bind_pure,
      isSome_ident, isSome_paramGroups, isSome_block? _ false body, exists_mem_iff_isSome]
    constructor
    · rintro ⟨named, params, hasBlock, body⟩
      exact ⟨⟨named, params, hasBlock⟩, fun _ _ => all_of_isFree rfl,
        fun _ _ _ _ => all_of_isFree rfl, body, all_returnType kind⟩
    · rintro ⟨⟨named, params, hasBlock⟩, -, -, body, -⟩
      exact ⟨named, params, hasBlock, body⟩

theorem isSome_block? (levels : List Level) (ofProgram : Bool) :
    ∀ b : Option Block, (block? levels ofProgram b).isSome ↔
      ∃ a ∈ b, (Node.block a).All Node.Translatable
  | none => by simp [block?]
  | some ⟨position, list, none⟩ => by
    rw [block?, block, isSome_bind_pure, isSome_decls levels list, forall_exists_mem_iff]
    simp [all_block, Node.Translatable]
  | some ⟨position, list, some body⟩ => by
    rw [block?, block, isSome_bind fun _ => isSome_bind_pure, isSome_decls levels list,
      isSome_compound levels true body, forall_exists_mem_iff]
    simp [all_block, Node.Translatable, and_assoc]

theorem isSome_decl? (levels : List Level) :
    ∀ d : Option Decl, (decl? levels d).isSome ↔ ∃ a ∈ d, (Node.decl a).All Node.Translatable
  | none => by simp [decl?]
  | some d => by
    rw [decl?, isSome_decl levels d]
    simp

theorem isSome_decls (levels : List Level) :
    ∀ list : List (Option Decl), (decls levels list).isSome ↔
      ∀ value ∈ list, ∃ d ∈ value, (Node.decl d).All Node.Translatable
  | [] => by simp [decls]
  | value :: rest => by
    rw [decls, List.forall_mem_cons, isSome_bind fun _ => isSome_bind_pure,
      isSome_decl? levels value, isSome_decls levels rest]

end

/-! ### Files -/

/-- A part of a unit has a text if it is translatable everywhere, and so has a part that
is missing. -/
theorem isSome_unitPart (levels : List Level) {of : UnitPart → Node}
    (all_part : ∀ value, (of value).All Node.Translatable ↔
      none ∉ value.decls ∧ (∀ u ∈ value.uses, (Node.uses u).All Node.Translatable) ∧
        ∀ item ∈ value.decls, ∀ d ∈ item, (Node.decl d).All Node.Translatable)
    (part : Option UnitPart) :
    (decls levels ((part.map UnitPart.decls).getD [])).isSome ↔
      ∀ value ∈ part, (of value).All Node.Translatable := by
  cases part with
  | none => simp [decls]
  | some value =>
    have uses : ∀ u ∈ value.uses, (Node.uses u).All Node.Translatable :=
      fun _ _ => all_of_isFree rfl
    rw [Option.map_some, Option.getD_some, isSome_decls levels value.decls, forall_exists_mem_iff]
    simp only [Option.mem_some_iff, forall_eq', all_part, iff_true_intro uses, true_and]

/-- A file has a text if it is translatable everywhere. -/
theorem isSome_translate (file : File) :
    (translate file).isSome ↔ file.node.All Node.Translatable := by
  cases file with
  | program f =>
    rw [translate, isSome_block?, exists_mem_iff_isSome, File.node, all_program]
    constructor
    · rintro ⟨hasBlock, block⟩
      exact ⟨hasBlock, fun _ _ => all_of_isFree rfl, fun _ _ => all_of_isFree rfl, block,
        all_comments f.comments⟩
    · rintro ⟨hasBlock, -, -, block, -⟩
      exact ⟨hasBlock, block⟩
  | unit f =>
    rw [translate, isSome_bind fun _ => isSome_bind_pure,
      isSome_unitPart _ (fun _ => all_interfacePart) f.interfacePart,
      isSome_unitPart _ (fun _ => all_implementationPart) f.implementationPart, File.node, all_unit]
    constructor
    · rintro ⟨first, second⟩
      exact ⟨trivial, fun _ _ => all_of_isFree rfl, first, second⟩
    · rintro ⟨-, -, first, second⟩
      exact ⟨first, second⟩

/-- A file compiles if it has a text. -/
theorem exists_compile_iff_translate (file : File) :
    (∃ text, file.compile = .ok text) ↔ (translate file).isSome := by
  constructor
  · rintro ⟨text, compiled⟩
    rw [translate_of_compile compiled, Option.isSome_some]
  · intro hasText
    by_cases clean : file.defects = []
    · -- without defects, compiling is generating with scopes attached
      rw [← (compiles_file file).1 clean, Option.isSome_map] at hasText
      rw [File.compile, if_pos (List.isEmpty_iff.mpr clean), File.generate]
      cases generated : Generation.script file.resolve with
      | error e =>
        rw [generated] at hasText
        cases hasText
      | ok script => exact ⟨_, rfl⟩
    · rw [(compiles_file file).2 clean] at hasText
      cases hasText

end Lexical

/-- A file compiles exactly if each node in it has what its own text needs. -/
theorem File.exists_compile_iff (file : File) :
    (∃ text, file.compile = .ok text) ↔
      ∀ node, file.node.Within node → node.Translatable := by
  rw [Lexical.exists_compile_iff_translate]
  exact Lexical.isSome_translate file

end PascalCompiler
