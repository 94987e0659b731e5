import PascalCompiler.Document.Node
import PascalCompiler.Proofs.Document.Spelling

/-!
# Recovering nodes from their parts

Each kind of node has its own reader. If the members of an object let every part
of a node be recovered, the reader of its kind returns the node and meets no
defect. Whether a part can be recovered is stated for parts in general, so that
the readers of all kinds rest on one lemma for nodes, lists, texts and integers
each.

## Main definitions

* `Document.View.Reads`: a view that is read as a node
* `Document.Recovers`: an object whose members let a part be recovered

## Main results

* `Document.readKind_eq`: a node is read from an object that lets its parts be
  recovered
-/

namespace PascalCompiler

/-! ### Nodes of a sort -/

namespace Node

/-- A node is taken for a value exactly if it is the value's node. -/
def Takes {α : Type} (as? : Node → Option α) (node : α → Node) : Prop :=
  ∀ n a, as? n = some a ↔ n = node a

theorem takes_ident : Takes asIdent? .ident := by
  intro n a
  cases n <;> simp [asIdent?]

theorem takes_type : Takes asType? .type := by
  intro n a
  cases n <;> simp [asType?]

theorem takes_decl : Takes asDecl? .decl := by
  intro n a
  cases n <;> simp [asDecl?]

theorem takes_var : Takes asVar? (fun value => .decl (.var value)) := by
  intro n a
  fun_cases asVar? n <;> simp_all

theorem takes_const : Takes asConst? (fun value => .decl (.const value)) := by
  intro n a
  fun_cases asConst? n <;> simp_all

theorem takes_param : Takes asParam? .param := by
  intro n a
  cases n <;> simp [asParam?]

theorem takes_stmt : Takes asStmt? .stmt := by
  intro n a
  cases n <;> simp [asStmt?]

theorem takes_compound : Takes asCompound? (fun value => .stmt (.compound value)) := by
  intro n a
  fun_cases asCompound? n <;> simp_all

theorem takes_clause : Takes asClause? .handler := by
  intro n a
  cases n <;> simp [asClause?]

theorem takes_expr : Takes asExpr? .expr := by
  intro n a
  cases n <;> simp [asExpr?]

theorem takes_element : Takes asElement? Element.node := by
  intro n a
  cases n <;> cases a <;> simp [asElement?, Element.node]

theorem takes_block : Takes asBlock? .block := by
  intro n a
  cases n <;> simp [asBlock?]

theorem takes_comment : Takes asComment? .comment := by
  intro n a
  cases n <;> simp [asComment?]

theorem takes_uses : Takes asUses? .uses := by
  intro n a
  cases n <;> simp [asUses?]

theorem takes_programHeader : Takes asProgramHeader? .programHeader := by
  intro n a
  cases n <;> simp [asProgramHeader?]

theorem takes_unitHeader : Takes asUnitHeader? .unitHeader := by
  intro n a
  cases n <;> simp [asUnitHeader?]

theorem takes_interfacePart : Takes asInterface? .interfacePart := by
  intro n a
  cases n <;> simp [asInterface?]

theorem takes_implementationPart : Takes asImplementation? .implementationPart := by
  intro n a
  cases n <;> simp [asImplementation?]

end Node

namespace Document

/-- The view is an object that is read as the node at every path, without
defects. -/
def View.Reads (view : View) (node : Node) : Prop :=
  (∃ span members, view.json = .object span members) ∧
    ∀ path, view.node path = pure (some node)

/-- The views are read as the nodes of a list. In a sparse list, null is read as
nothing. -/
inductive ReadsList (listing : Listing) : List View → List (Option Node) → Prop where
  | nil : ReadsList listing [] []
  | null {view : View} {views : List View} {nodes : List (Option Node)}
      (sparse : listing = .sparse ∨ listing = .bracketed)
      (nothing : ∀ path, view.node path = pure none) (rest : ReadsList listing views nodes) :
      ReadsList listing (view :: views) nodes
  | cons {view : View} {views : List View} {node : Node} {nodes : List (Option Node)}
      (first : view.Reads node) (rest : ReadsList listing views nodes) :
      ReadsList listing (view :: views) (some node :: nodes)

/-- The member in the slot is read as the node, or is absent if there is none. -/
def Slot.Recovers (slot : Slot) : Option Node → Prop
  | none => slot.view? = none
  | some node => ∃ view, slot.view? = some view ∧ view.Reads node

/-- The members of the object let the part be recovered. -/
def Recovers (object : Object) : Component → Prop
  | .child key aliases _ node => (object.slot key aliases).Recovers node
  | .list key listing nodes =>
    (nodes = [] ∧ listing ≠ .bracketed ∧ (object.slot key []).view? = none) ∨
      ∃ view span items, (object.slot key []).view? = some view ∧ view.json = .array span items ∧
        ReadsList listing view.items nodes
  | .text key aliases needed value =>
    (value = "" ∧ needed = false ∧ (object.slot key aliases).view? = none) ∨
      ∃ view span, (object.slot key aliases).view? = some view ∧ view.json = .string span value
  | .integer key value =>
    ∃ view, (object.slot key []).view? = some view ∧ Object.integer? view.json = some value
  | .comments value =>
    (value = {} ∧ (object.slot "comments" []).view? = none) ∨
      ∃ view span members, (object.slot "comments" []).view? = some view ∧
        view.json = .object span members ∧ ∀ path position, ∀ entry ∈ value.named,
          ((Object.mk view.members path position).slot entry.1 []).Recovers
            (entry.2.map .comment)

/-! ### Readers of parts -/

section Parts

variable {object : Object} {key : String} {aliases : List String} {needed : Bool}
  {α : Type} {as? : Node → Option α} {node : α → Node}

theorem Reading.pure_bind {α β : Type} (a : α) (next : α → Reading β) :
    (pure a : Reading α) >>= next = next a := rfl

theorem node_of_recovers {slot : Slot} {value : Option Node} (recovers : slot.Recovers value) :
    slot.node = pure value := by
  cases value with
  | none =>
    have absent : slot.view? = none := recovers
    rw [Slot.node, absent]
  | some node =>
    obtain ⟨view, found, reads⟩ := recovers
    rw [Slot.node, found]
    exact reads.2 _

theorem cast_map (role : Role) (takes : Node.Takes as? node) (path : Path)
    (value : Option α) : Object.cast role as? path (value.map node) = pure value := by
  cases value with
  | none => rfl
  | some a => rw [Option.map_some, Object.cast, (takes _ a).mpr rfl]

theorem optional_eq (takes : Node.Takes as? node) {value : Option α} (role : Role)
    (recovers : Recovers object (.child key aliases needed (value.map node))) :
    object.optional key aliases role as? = pure value := by
  rw [Object.optional, node_of_recovers recovers, Reading.pure_bind, cast_map role takes]

theorem mandatory_eq (takes : Node.Takes as? node) {value : Option α} (word : String)
    (role : Role) (recovers : Recovers object (.child key aliases true (value.map node)))
    (complete : (Component.child key aliases true (value.map node)).Complete) :
    object.mandatory key aliases word role as? = pure value := by
  -- the node is there, so its slot is not empty and no defect is reported
  have there : (object.slot key aliases).view?.isNone = false := by
    obtain ⟨a, rfl⟩ := Option.isSome_iff_exists.mp (Option.isSome_map ▸ complete rfl)
    obtain ⟨view, found, -⟩ := recovers
    rw [found]
    rfl
  rw [Object.mandatory, node_of_recovers recovers, there]
  exact cast_map role takes _ value

theorem castItems_eq (takes : Node.Takes as? node) {listing : Listing}
    {word : Option String} (skips : listing = .sparse ∨ listing = .bracketed → word = none)
    (role : Role) (path : Path) {views : List View} {nodes : List (Option Node)}
    (reads : ReadsList listing views nodes) {values : List (Option α)}
    (same : nodes = values.map (·.map node)) (index : Nat) :
    Object.castItems object path word role as? index views = pure values.reduceOption := by
  induction reads generalizing values index with
  | nil =>
    obtain rfl := List.map_eq_nil_iff.mp same.symm
    rfl
  | null sparse nothing _ ih =>
    -- sparse lists have no word for a gap, so null is skipped
    have rest := ih same (index + 1)
    rw [skips sparse] at rest ⊢
    rw [Object.castItems, nothing, rest]
    rfl
  | @cons _ _ child nodes first _ ih =>
    cases values with
    | nil => cases same
    | cons value values =>
      obtain ⟨head, tail⟩ := List.cons.inj same
      cases value with
      | none => cases head
      | some a =>
        obtain rfl : child = node a := Option.some_inj.mp head
        have taken : Object.cast role as? (path.index index) (some (node a)) = pure (some a) :=
          cast_map role takes _ (some a)
        rw [Object.castItems, first.2, ih tail]
        simp only [Reading.pure_bind, taken]
        rfl

theorem list_eq (takes : Node.Takes as? node) {listing : Listing}
    {word : Option String} (skips : listing = .sparse ∨ listing = .bracketed → word = none)
    (role : Role) {values : List (Option α)}
    (recovers : Recovers object (.listOf key listing node values)) :
    object.list key word role as? = pure values.reduceOption := by
  rw [Object.list]
  obtain ⟨empty, -, absent⟩ | ⟨view, span, items, found, array, reads⟩ := recovers
  · obtain rfl := List.map_eq_nil_iff.mp empty
    rw [Object.items, absent]
    rfl
  · rw [Object.items, found]
    simp only [array, Reading.pure_bind]
    exact castItems_eq takes skips role _ reads rfl 0

theorem text_eq {value : String} (recovers : Recovers object (.text key aliases needed value)) :
    object.text key aliases needed = pure value := by
  rw [Object.text]
  obtain ⟨rfl, rfl, absent⟩ | ⟨view, span, found, string⟩ := recovers
  · rw [absent]
    rfl
  · rw [found]
    simp only [string]

theorem integer_eq {value : Int} (document : Bytes)
    (recovers : Recovers object (.integer key value)) :
    object.integer document key = pure value := by
  obtain ⟨view, found, integer⟩ := recovers
  rw [Object.integer, found]
  simp only [integer]

theorem map_some_reduceOption {values : List (Option α)} (full : none ∉ values) :
    values.reduceOption.map some = values := by
  induction values with
  | nil => rfl
  | cons value values ih =>
    obtain ⟨first, rest⟩ := List.ne_and_not_mem_of_not_mem_cons full
    cases value with
    | none => exact absurd rfl first
    | some a => exact congrArg (some a :: ·) (ih rest)

theorem full_of_complete {listing : Listing} {values : List (Option α)}
    (complete : (Component.listOf key listing node values).Complete) : none ∉ values :=
  fun gap => complete.1 (List.mem_map.mpr ⟨none, gap, rfl⟩)

/-- A list without gaps is read back, each of its nodes being there. -/
theorem listOf_eq (takes : Node.Takes as? node) {listing : Listing}
    {word : Option String} (skips : listing = .sparse ∨ listing = .bracketed → word = none)
    (role : Role) {values : List (Option α)}
    (recovers : Recovers object (.listOf key listing node values))
    (complete : (Component.listOf key listing node values).Complete) :
    (do return (← object.list key word role as?).map some : Reading (List (Option α))) =
      pure values := by
  rw [list_eq takes skips role recovers, Reading.pure_bind,
    map_some_reduceOption (full_of_complete complete)]

end Parts

section Readers

variable {object : Object} {key : String}

theorem ident_eq {value : Option Ident} (recovers : Recovers object (.mandatory key .ident value))
    (complete : (Component.mandatory key .ident value).Complete) : object.ident key = pure value :=
  mandatory_eq Node.takes_ident key _ recovers complete

theorem target_eq {aliases : List String} {value : Option Ident}
    (recovers : Recovers object (.child "target" aliases true (value.map .ident)))
    (complete : (Component.child "target" aliases true (value.map .ident)).Complete) :
    object.target aliases = pure value :=
  mandatory_eq Node.takes_ident "target" _ recovers complete

theorem expr_eq {value : Option Expr} (recovers : Recovers object (.mandatory key .expr value))
    (complete : (Component.mandatory key .expr value).Complete) : object.expr key = pure value :=
  mandatory_eq Node.takes_expr key _ recovers complete

theorem ident?_eq {value : Option Ident} (recovers : Recovers object (.optional key .ident value)) :
    object.ident? key = pure value :=
  optional_eq Node.takes_ident _ recovers

theorem type?_eq {value : Option TypeRef}
    (recovers : Recovers object (.optional key .type value)) : object.type? key = pure value :=
  optional_eq Node.takes_type _ recovers

theorem expr?_eq {value : Option Expr} (recovers : Recovers object (.optional key .expr value)) :
    object.expr? key = pure value :=
  optional_eq Node.takes_expr _ recovers

theorem stmt?_eq {value : Option Stmt} (recovers : Recovers object (.optional key .stmt value)) :
    object.stmt? key = pure value :=
  optional_eq Node.takes_stmt _ recovers

theorem block?_eq {needed : Bool} {value : Option Block}
    (recovers : Recovers object (.child key [] needed (value.map .block))) :
    object.block? key = pure value :=
  optional_eq Node.takes_block _ recovers

theorem uses?_eq {value : Option UsesClause}
    (recovers : Recovers object (.optional "uses" .uses value)) : object.uses? = pure value :=
  optional_eq Node.takes_uses _ recovers

theorem idents_eq {listing : Listing} (dense : listing = .plain ∨ listing = .nonempty)
    {values : List (Option Ident)} (recovers : Recovers object (.listOf key listing .ident values))
    (complete : (Component.listOf key listing .ident values).Complete) :
    object.idents key = pure values := by
  refine listOf_eq Node.takes_ident ?_ _ recovers complete
  obtain rfl | rfl := dense <;> simp

theorem args_eq {values : List (Option Expr)}
    (recovers : Recovers object (.listOf "params" .plain .expr values))
    (complete : (Component.listOf "params" .plain .expr values).Complete) :
    object.args = pure values :=
  listOf_eq Node.takes_expr (by simp) _ recovers complete

theorem params_eq {values : List (Option ParamGroup)}
    (recovers : Recovers object (.listOf "params" .plain .param values))
    (complete : (Component.listOf "params" .plain .param values).Complete) :
    object.params = pure values :=
  listOf_eq Node.takes_param (by simp) _ recovers complete

theorem decls_eq {values : List (Option Decl)}
    (recovers : Recovers object (.listOf "declarations" .plain .decl values))
    (complete : (Component.listOf "declarations" .plain .decl values).Complete) :
    object.decls = pure values :=
  listOf_eq Node.takes_decl (by simp) _ recovers complete

theorem stmts_eq {values : List (Option Stmt)}
    (recovers : Recovers object (.listOf key .sparse .stmt values))
    (complete : (Component.listOf key .sparse .stmt values).Complete) :
    object.stmts key = pure values :=
  listOf_eq Node.takes_stmt (fun _ => rfl) _ recovers complete

/-- The body of a block is missed by what is read, not by what is there. -/
theorem statements_eq {value : Option Compound}
    (recovers : Recovers object
      (.mandatory "statements" (fun body => .stmt (.compound body)) value))
    (complete :
      (Component.mandatory "statements" (fun body => .stmt (.compound body)) value).Complete) :
    object.statements = pure value := by
  obtain ⟨body, rfl⟩ := Option.isSome_iff_exists.mp (Option.isSome_map ▸ complete rfl)
  have slot : (object.slot "statements" []).Recovers (some (.stmt (.compound body))) := recovers
  rw [Object.statements, node_of_recovers slot]
  rfl

theorem handlers?_eq {value : Option Handlers} (recovers : Recovers object (.handlers value))
    (complete : (Component.handlers value).Complete) : object.handlers? = pure value := by
  rw [Object.handlers?]
  match value with
  | none =>
    have absent : (object.slot "handlers" []).view? = none := recovers
    rw [absent]
  | some (.all body) =>
    -- even an empty list of handlers is written, or it would be taken for none
    obtain ⟨-, bracketed, -⟩ | ⟨view, span, items, found, array, reads⟩ := recovers
    · exact absurd rfl bracketed
    · have full : none ∉ body := full_of_complete complete
      have list : object.castItems (object.slot "handlers" []).path none .statement Node.asStmt? 0
          view.items = pure body.reduceOption :=
        castItems_eq Node.takes_stmt (fun _ => rfl) .statement _ reads rfl 0
      rw [found]
      simp only [array, list, Reading.pure_bind, map_some_reduceOption full]
  | some (.clause clause) =>
    obtain ⟨view, found, ⟨span, members, isObject⟩, reads⟩ := recovers
    rw [found]
    simp only [isObject, reads]
    rfl

theorem comments_eq {value : ProgramComments} (recovers : Recovers object (.comments value)) :
    object.comments = pure value := by
  rw [Object.comments]
  obtain ⟨rfl, absent⟩ | ⟨view, span, members, found, isObject, inner⟩ := recovers
  · rw [absent]
  · have each (entry : String × Option Comment) (mem : entry ∈ value.named) (path : Path) :
        (Object.mk view.members path object.position).comment? entry.1 = pure entry.2 := by
      have part : Recovers ⟨view.members, path, object.position⟩
          (.optional entry.1 .comment entry.2) := inner path object.position entry mem
      exact optional_eq Node.takes_comment _ part
    -- the four comments of a program are read one after the other
    rw [found]
    simp only [isObject]
    rw [each ("pre", value.pre) (by simp [ProgramComments.named]),
      each ("uses", value.uses) (by simp [ProgramComments.named]),
      each ("end", value.final) (by simp [ProgramComments.named]),
      each ("post", value.post) (by simp [ProgramComments.named])]
    rfl

end Readers

/-! ### Readers of kinds -/

section Kinds

variable {source : Source} {object : Object}

/-- All parts of a node can be recovered and nothing is missing from them. -/
def RecoversAll (object : Object) (parts : List Component) : Prop :=
  ∀ part ∈ parts, Recovers object part ∧ part.Complete

theorem recoversAll_cons {part : Component} {parts : List Component} :
    RecoversAll object (part :: parts) ↔
      (Recovers object part ∧ part.Complete) ∧ RecoversAll object parts :=
  List.forall_mem_cons

theorem readExpr_eq {value : Expr} (place : object.position = value.position)
    (all : RecoversAll object value.parts) :
    readExpr source object value.kind = pure (some value) := by
  cases value with
  | text position text =>
    obtain ⟨⟨hText, -⟩, -⟩ := recoversAll_cons.mp all
    rw [Expr.kind, readExpr, text_eq hText, place]
    rfl
  | control position code =>
    obtain ⟨⟨hCode, -⟩, -⟩ := recoversAll_cons.mp all
    rw [Expr.kind, readExpr, integer_eq source.text hCode, place]
    rfl
  | integer position integer =>
    obtain ⟨⟨hInteger, -⟩, -⟩ := recoversAll_cons.mp all
    rw [Expr.kind, readExpr, integer_eq source.text hInteger, place]
    rfl
  | parens position inner =>
    obtain ⟨⟨hInner, inner⟩, -⟩ := recoversAll_cons.mp all
    rw [Expr.kind, readExpr, expr_eq hInner inner, place]
    rfl
  | binary position op left right =>
    obtain ⟨⟨hOp, -⟩, all⟩ := recoversAll_cons.mp all
    obtain ⟨⟨hLeft, left⟩, all⟩ := recoversAll_cons.mp all
    obtain ⟨⟨hRight, right⟩, -⟩ := recoversAll_cons.mp all
    rw [Expr.kind, readExpr, text_eq hOp, expr_eq hLeft left, expr_eq hRight right, place]
    rfl
  | call position target args =>
    obtain ⟨⟨hTarget, target⟩, all⟩ := recoversAll_cons.mp all
    obtain ⟨⟨hArgs, args⟩, -⟩ := recoversAll_cons.mp all
    rw [Expr.kind, readExpr, target_eq hTarget target, args_eq hArgs args, place]
    rfl
  | setOf position elements =>
    obtain ⟨⟨hElements, full⟩, -⟩ := recoversAll_cons.mp all
    rw [Expr.kind, readExpr, list_eq Node.takes_element (fun _ => rfl) _ hElements,
      Reading.pure_bind, map_some_reduceOption (full_of_complete full), place]
    rfl

theorem readStmt_eq {value : Stmt} (place : object.position = value.position)
    (all : RecoversAll object value.parts) :
    readStmt object value.kind = pure (some value) := by
  cases value with
  | assign position target op source =>
    obtain ⟨⟨hTarget, target⟩, all⟩ := recoversAll_cons.mp all
    obtain ⟨⟨hOp, -⟩, all⟩ := recoversAll_cons.mp all
    obtain ⟨⟨hSource, source⟩, -⟩ := recoversAll_cons.mp all
    rw [Stmt.kind, readStmt, target_eq hTarget target, text_eq hOp, expr_eq hSource source, place]
    rfl
  | call position target args =>
    obtain ⟨⟨hTarget, target⟩, all⟩ := recoversAll_cons.mp all
    obtain ⟨⟨hArgs, args⟩, -⟩ := recoversAll_cons.mp all
    rw [Stmt.kind, readStmt, target_eq hTarget target, args_eq hArgs args, place]
    rfl
  | compound value =>
    obtain ⟨position, body⟩ := value
    obtain ⟨⟨hBody, body⟩, -⟩ := recoversAll_cons.mp all
    rw [Stmt.kind, readStmt, stmts_eq hBody body, place]
    rfl
  | ifThen position condition onTrue onFalse =>
    obtain ⟨⟨hCondition, condition⟩, all⟩ := recoversAll_cons.mp all
    obtain ⟨⟨hTrue, -⟩, all⟩ := recoversAll_cons.mp all
    obtain ⟨⟨hFalse, -⟩, -⟩ := recoversAll_cons.mp all
    rw [Stmt.kind, readStmt, expr_eq hCondition condition, stmt?_eq hTrue, stmt?_eq hFalse, place]
    rfl
  | tryExcept position body handlers =>
    obtain ⟨⟨hBody, body⟩, all⟩ := recoversAll_cons.mp all
    obtain ⟨⟨hHandlers, handlers⟩, -⟩ := recoversAll_cons.mp all
    rw [Stmt.kind, readStmt, stmts_eq hBody body, handlers?_eq hHandlers handlers, place]
    rfl
  | tryFinally position body cleanup =>
    obtain ⟨⟨hBody, body⟩, all⟩ := recoversAll_cons.mp all
    obtain ⟨⟨hCleanup, cleanup⟩, -⟩ := recoversAll_cons.mp all
    rw [Stmt.kind, readStmt, stmts_eq hBody body, stmts_eq hCleanup cleanup, place]
    rfl

theorem readVar_eq {value : VarDecl} (place : object.position = value.position)
    (all : RecoversAll object (Decl.var value).parts) : readVar object = pure value := by
  obtain ⟨⟨hNames, names⟩, all⟩ := recoversAll_cons.mp all
  obtain ⟨⟨hType, -⟩, all⟩ := recoversAll_cons.mp all
  obtain ⟨⟨hValue, -⟩, -⟩ := recoversAll_cons.mp all
  have some : value.names.isEmpty = false := by
    have nonempty := names.2 rfl
    simpa using nonempty
  rw [readVar, idents_eq (.inr rfl) hNames names, type?_eq hType, expr?_eq hValue, place]
  simp only [Reading.pure_bind, some]
  rfl

theorem readConst_eq {value : ConstDecl} (place : object.position = value.position)
    (all : RecoversAll object (Decl.const value).parts) : readConst object = pure value := by
  obtain ⟨⟨hName, name⟩, all⟩ := recoversAll_cons.mp all
  obtain ⟨⟨hType, -⟩, all⟩ := recoversAll_cons.mp all
  obtain ⟨⟨hValue, value⟩, -⟩ := recoversAll_cons.mp all
  rw [readConst, ident_eq hName name, type?_eq hType, expr_eq hValue value, place]
  rfl

/-- Functions and procedures have tags of their own. -/
def isFunction : RoutineKind → Bool
  | .procedure => false
  | .function _ => true

theorem readRoutineKind_eq {kind : RoutineKind} (all : RecoversAll object kind.parts) :
    readRoutineKind object (isFunction kind) = pure kind := by
  cases kind with
  | procedure => rfl
  | function result =>
    obtain ⟨⟨hResult, -⟩, -⟩ := recoversAll_cons.mp all
    rw [isFunction, readRoutineKind, type?_eq hResult]
    rfl

theorem readHeader_eq {value : Header} (place : object.position = value.position)
    (all : RecoversAll object (Decl.header value).parts) :
    readHeader object (isFunction value.kind) = pure value := by
  obtain ⟨⟨hName, name⟩, all⟩ := recoversAll_cons.mp all
  obtain ⟨⟨hParams, params⟩, all⟩ := recoversAll_cons.mp all
  rw [readHeader, ident_eq hName name, params_eq hParams params, readRoutineKind_eq all, place]
  rfl

theorem readRoutine_eq {value : Routine} (place : object.position = value.position)
    (unscoped : value.scope = none) (all : RecoversAll object (Decl.routine value).parts) :
    readRoutine object (isFunction value.kind) = pure value := by
  obtain ⟨⟨hName, name⟩, all⟩ := recoversAll_cons.mp all
  obtain ⟨⟨hParams, params⟩, all⟩ := recoversAll_cons.mp all
  obtain ⟨⟨hBlock, -⟩, all⟩ := recoversAll_cons.mp all
  rw [readRoutine, ident_eq hName name, params_eq hParams params, readRoutineKind_eq all,
    block?_eq hBlock, place]
  cases value
  simp only [Reading.pure_bind, ← unscoped]

theorem readDecl_eq {value : Decl} (place : object.position = value.position)
    (unscoped : (Node.decl value).scope = none) (all : RecoversAll object value.parts) :
    readDecl object value.kind = pure (some value) := by
  cases value with
  | var value =>
    rw [Decl.kind, readDecl, readVar_eq place all]
    rfl
  | vars position list =>
    obtain ⟨⟨hList, full⟩, -⟩ := recoversAll_cons.mp all
    rw [Decl.kind, readDecl, list_eq Node.takes_var (fun _ => rfl) _ hList, Reading.pure_bind,
      map_some_reduceOption (full_of_complete full), place]
    rfl
  | const value =>
    rw [Decl.kind, readDecl, readConst_eq place all]
    rfl
  | consts position list =>
    obtain ⟨⟨hList, full⟩, -⟩ := recoversAll_cons.mp all
    rw [Decl.kind, readDecl, list_eq Node.takes_const (fun _ => rfl) _ hList, Reading.pure_bind,
      map_some_reduceOption (full_of_complete full), place]
    rfl
  | header value =>
    have read := readHeader_eq place all
    obtain ⟨position, kind, name, params⟩ := value
    cases kind with
    | procedure | function =>
      simp only [isFunction] at read
      simp only [Decl.kind, Header.nodeKind, readDecl, read]
      rfl
  | routine value =>
    have read := readRoutine_eq place unscoped all
    obtain ⟨position, kind, name, params, block, scope⟩ := value
    cases kind with
    | procedure | function =>
      simp only [isFunction] at read
      simp only [Decl.kind, Routine.nodeKind, readDecl, read]
      rfl

theorem readKind_expr (source : Source) (object : Object) (value : Expr) :
    readKind source object value.kind =
      (do return (← readExpr source object value.kind).map .expr) := by
  cases value <;> rfl

theorem readKind_stmt (source : Source) (object : Object) (value : Stmt) :
    readKind source object value.kind = (do return (← readStmt object value.kind).map .stmt) := by
  cases value <;> rfl

theorem readKind_decl (source : Source) (object : Object) (value : Decl) :
    readKind source object value.kind = (do return (← readDecl object value.kind).map .decl) := by
  cases value with
  | header value =>
    obtain ⟨_, kind, _, _⟩ := value
    cases kind <;> rfl
  | routine value =>
    obtain ⟨_, kind, _, _, _, _⟩ := value
    cases kind <;> rfl
  | _ => rfl

theorem readProgram_eq {file : ProgramFile} (place : object.position = file.position)
    (unscoped : file.scope = none) (all : RecoversAll object (Node.program file).parts) :
    readProgram object = pure file := by
  obtain ⟨⟨hHeading, -⟩, all⟩ := recoversAll_cons.mp all
  obtain ⟨⟨hUses, -⟩, all⟩ := recoversAll_cons.mp all
  obtain ⟨⟨hBlock, block⟩, all⟩ := recoversAll_cons.mp all
  obtain ⟨⟨hComments, -⟩, -⟩ := recoversAll_cons.mp all
  have there : file.block.isNone = false := by
    have some : file.block.isSome := Option.isSome_map ▸ block rfl
    rw [← Option.not_isSome, some]
    rfl
  rw [readProgram, uses?_eq hUses, optional_eq Node.takes_programHeader _ hHeading,
    block?_eq hBlock, comments_eq hComments, place]
  simp only [Reading.pure_bind, there, ← unscoped]
  rfl

theorem readUnit_eq {file : UnitFile} (place : object.position = file.position)
    (unscoped : file.scope = none) (all : RecoversAll object (Node.unit file).parts) :
    readUnit object = pure file := by
  obtain ⟨⟨hHeading, -⟩, all⟩ := recoversAll_cons.mp all
  obtain ⟨⟨hInterface, -⟩, all⟩ := recoversAll_cons.mp all
  obtain ⟨⟨hImplementation, -⟩, -⟩ := recoversAll_cons.mp all
  rw [readUnit, optional_eq Node.takes_unitHeader _ hHeading,
    optional_eq Node.takes_interfacePart _ hInterface,
    optional_eq Node.takes_implementationPart _ hImplementation, place]
  simp only [Reading.pure_bind, ← unscoped]

theorem readUnitPart_eq {value : UnitPart} (place : object.position = value.position)
    (all : RecoversAll object (Node.interfacePart value).parts) :
    readUnitPart object = pure value := by
  obtain ⟨⟨hUses, -⟩, all⟩ := recoversAll_cons.mp all
  obtain ⟨⟨hDecls, decls⟩, -⟩ := recoversAll_cons.mp all
  rw [readUnitPart, uses?_eq hUses, decls_eq hDecls decls, place]
  rfl

/-- A node is read from an object that lets its parts be recovered. -/
theorem readKind_eq {node : Node} (place : object.position = node.position)
    (unscoped : node.scope = none) (all : RecoversAll object node.parts) :
    readKind source object node.kind = pure (some node) := by
  cases node with
  | program file =>
    rw [Node.kind, readKind, readProgram_eq place unscoped all]
    rfl
  | unit file =>
    rw [Node.kind, readKind, readUnit_eq place unscoped all]
    rfl
  | programHeader value | unitHeader value =>
    obtain ⟨⟨hName, -⟩, -⟩ := recoversAll_cons.mp all
    rw [Node.kind, readKind, ident?_eq hName, place]
    rfl
  | interfacePart value | implementationPart value =>
    rw [Node.kind, readKind, readUnitPart_eq place all]
    rfl
  | uses value =>
    obtain ⟨⟨hUnits, units⟩, -⟩ := recoversAll_cons.mp all
    rw [Node.kind, readKind, idents_eq (.inl rfl) hUnits units, place]
    rfl
  | comment value | ident value =>
    obtain ⟨⟨hText, -⟩, -⟩ := recoversAll_cons.mp all
    rw [Node.kind, readKind, text_eq hText, place]
    rfl
  | type value =>
    cases value with
    | inbuilt position name =>
      obtain ⟨⟨hName, -⟩, -⟩ := recoversAll_cons.mp all
      simp only [Node.kind, TypeRef.kind, readKind, text_eq hName, place]
      rfl
    | named position name =>
      obtain ⟨⟨hName, name⟩, -⟩ := recoversAll_cons.mp all
      simp only [Node.kind, TypeRef.kind, readKind, ident_eq hName name, place]
      rfl
  | param value =>
    obtain ⟨⟨hNames, names⟩, all⟩ := recoversAll_cons.mp all
    obtain ⟨⟨hType, -⟩, -⟩ := recoversAll_cons.mp all
    rw [Node.kind, readKind, idents_eq (.inl rfl) hNames names, type?_eq hType, place]
    rfl
  | block value =>
    obtain ⟨position, decls, body⟩ := value
    obtain ⟨⟨hDecls, decls⟩, all⟩ := recoversAll_cons.mp all
    obtain ⟨⟨hBody, body⟩, -⟩ := recoversAll_cons.mp all
    rw [Node.kind, readKind, decls_eq hDecls decls, statements_eq hBody body, place]
    rfl
  | decl value =>
    rw [Node.kind, readKind_decl, readDecl_eq place unscoped all]
    rfl
  | stmt value =>
    rw [Node.kind, readKind_stmt, readStmt_eq place all]
    rfl
  | handler value =>
    obtain ⟨position, name, type, body⟩ := value
    obtain ⟨⟨hName, -⟩, all⟩ := recoversAll_cons.mp all
    obtain ⟨⟨hType, -⟩, all⟩ := recoversAll_cons.mp all
    obtain ⟨⟨hBody, -⟩, -⟩ := recoversAll_cons.mp all
    rw [Node.kind, readKind, ident?_eq hName, type?_eq hType, stmt?_eq hBody, place]
    rfl
  | expr value =>
    rw [Node.kind, readKind_expr, readExpr_eq place all]
    rfl
  | range value =>
    obtain ⟨position, start, stop⟩ := value
    obtain ⟨⟨hStart, start⟩, all⟩ := recoversAll_cons.mp all
    obtain ⟨⟨hStop, stop⟩, -⟩ := recoversAll_cons.mp all
    rw [Node.kind, readKind, expr_eq hStart start, expr_eq hStop stop, place]
    rfl

end Kinds

end Document

end PascalCompiler
