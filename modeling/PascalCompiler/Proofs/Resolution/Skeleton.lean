import PascalCompiler.Proofs.Resolution.Detached

/-!
# What resolution sees of a file

The skeleton of a file has the kinds of its declarations in their order, the names in
them, and the skeletons of the declarations inside. There are no statements,
expressions, types or positions in it, and no scopes. What resolution attaches to a file
is a function of the skeleton.

## Main definitions

* `Skeleton`, `FileSkeleton`: what is left of a declaration and of a file
* `Skeleton.bindings`, `Skeleton.holders`: the names that a skeleton binds, and its routines with
  their scopes

## Main results

* `Skeleton.declHolders_attachDecls`: the routines of declarations with scopes attached
* `File.holders_resolve`: the holders of a resolved file
-/

namespace PascalCompiler

/-- The name of an identifier, empty if there is none. -/
def nameOrEmpty (ident : Option Ident) : String :=
  (ident.map Ident.name).getD ""

/-- The kind of a declaration and the names in it. Names that are absent are empty. -/
inductive Skeleton where
  | absent
  | var (names : List String)
  | vars (list : List (List String))
  | const (name : String)
  | consts (names : List String)
  | header (kind : NameKind) (name : String)
  | routine (kind : NameKind) (name : String) (params : List (List String))
      (decls : List Skeleton)

/-- The kind of a file and the skeletons of its declarations. -/
structure FileSkeleton where
  kind : Kind
  decls : List Skeleton

namespace Skeleton

/-! ### Skeletons of declarations -/

/-- The names of a variable declaration. -/
def varNames (d : Option VarDecl) : List String :=
  (d.map fun d => d.names.map nameOrEmpty).getD []

/-- The name of a constant declaration. -/
def constName (d : Option ConstDecl) : String :=
  (d.map fun d => nameOrEmpty d.name).getD ""

/-- The names of the parameters declared with one type. -/
def paramNames (group : Option ParamGroup) : List String :=
  (group.map fun group => group.names.map nameOrEmpty).getD []

mutual

/-- The skeleton of a declaration. -/
def ofDecl : Decl → Skeleton
  | .var d => .var (varNames (some d))
  | .vars _ list => .vars (list.map varNames)
  | .const d => .const (constName (some d))
  | .consts _ list => .consts (list.map constName)
  | .header h => .header h.kind.nameKind (nameOrEmpty h.name)
  | .routine r => ofRoutine r

/-- The skeleton of a routine. -/
def ofRoutine : Routine → Skeleton
  | ⟨_, kind, name, params, block, _⟩ =>
    .routine kind.nameKind (nameOrEmpty name) (params.map paramNames) (ofBlock block)

/-- The skeletons of the declarations of a block that may be absent. -/
def ofBlock : Option Block → List Skeleton
  | none => []
  | some ⟨_, decls, _⟩ => ofDecls decls

/-- The skeletons of a list of declarations. -/
def ofDecls : List (Option Decl) → List Skeleton
  | [] => []
  | none :: rest => .absent :: ofDecls rest
  | some d :: rest => ofDecl d :: ofDecls rest

end

/-! ### Names and scopes of a skeleton -/

/-- The binding of a name, none if it is empty. -/
def binding (kind : NameKind) (name : String) : List Resolution.Binding :=
  if name = "" then [] else [(name, kind)]

/-- The bindings of names that are declared together. -/
def bindAll (kind : NameKind) (names : List String) : List Resolution.Binding :=
  names.flatMap (binding kind)

/-- The bindings of a declaration at its own level. -/
def bindings : Skeleton → List Resolution.Binding
  | .absent => []
  | .var names => bindAll .var names
  | .vars list => list.flatMap (bindAll .var)
  | .const name => binding .constant name
  | .consts names => bindAll .constant names
  | .header kind name => binding kind name
  | .routine kind name _ _ => binding kind name

/-- The table of the names bound by parameters and the declarations behind them. -/
def table (params : List (List String)) (decls : List Skeleton) : NameTable :=
  .ofBindings (params.flatMap (bindAll .var) ++ decls.flatMap bindings)

/-- The kind of the node of a routine whose name denotes the given kind. -/
def nodeKind (kind : NameKind) : Kind :=
  if kind = .procedure then .procedureDeclaration else .functionDeclaration

mutual

/-- The routines of a declaration with their scopes, inside the given tables. The first
has the number `own` and is inside the holder with the number `parent`. -/
def holders (outer : List NameTable) (parent own : Nat) : Skeleton → List Holder
  | .routine kind name params decls =>
    ⟨nodeKind kind, name, some ⟨table params decls, outer⟩, some parent⟩ ::
      holdersOf (table params decls :: outer) own (own + 1) decls
  | _ => []

/-- The routines of a list of declarations with their scopes. -/
def holdersOf (outer : List NameTable) (parent next : Nat) : List Skeleton → List Holder
  | [] => []
  | d :: rest =>
    let inside := holders outer parent next d
    inside ++ holdersOf outer parent (next + inside.length) rest

end

/-! ### Resolution by skeletons -/

theorem ofIdent_eq (kind : NameKind) (ident : Option Ident) :
    Resolution.ofIdent kind ident = binding kind (nameOrEmpty ident) := by
  cases ident with
  | none => rfl
  | some ident => rfl

theorem flatMap_ofIdent (kind : NameKind) (idents : List (Option Ident)) :
    idents.flatMap (Resolution.ofIdent kind) = bindAll kind (idents.map nameOrEmpty) := by
  rw [bindAll, List.flatMap_map]
  congr 1
  funext ident
  exact ofIdent_eq kind ident

theorem ofVar_eq (d : Option VarDecl) : Resolution.ofVar d = bindAll .var (varNames d) := by
  cases d with
  | none => rfl
  | some d => exact flatMap_ofIdent .var d.names

theorem ofConst_eq (d : Option ConstDecl) :
    Resolution.ofConst d = binding .constant (constName d) := by
  cases d with
  | none => rfl
  | some d => exact ofIdent_eq .constant d.name

theorem ofParams_eq (params : List (Option ParamGroup)) :
    Resolution.ofParams params = (params.map paramNames).flatMap (bindAll .var) := by
  rw [Resolution.ofParams, List.flatMap_map]
  congr 1
  funext group
  cases group with
  | none => rfl
  | some group => exact flatMap_ofIdent .var group.names

/-- A declaration binds the names of its skeleton. -/
theorem ofDecl_eq (d : Decl) : Resolution.ofDecl (some d) = (ofDecl d).bindings := by
  cases d with
  | var d => exact ofVar_eq (some d)
  | vars position list =>
    rw [Resolution.ofDecl, ofDecl, bindings, List.flatMap_map]
    congr 1
    funext d
    exact ofVar_eq d
  | const d => exact ofConst_eq (some d)
  | consts position list =>
    rw [Resolution.ofDecl, ofDecl, bindings, bindAll, List.flatMap_map]
    congr 1
    funext d
    exact ofConst_eq d
  | header h => exact ofIdent_eq h.kind.nameKind h.name
  | routine r =>
    obtain ⟨position, kind, name, params, block, scope⟩ := r
    rw [ofDecl, ofRoutine, bindings]
    exact ofIdent_eq kind.nameKind name

theorem ofDecls_eq (decls : List (Option Decl)) :
    Resolution.ofDecls decls = (ofDecls decls).flatMap bindings := by
  induction decls with
  | nil => rfl
  | cons d rest ih =>
    rw [Resolution.ofDecls] at ih ⊢
    cases d with
    | none =>
      rw [List.flatMap_cons, ih, ofDecls, List.flatMap_cons]
      rfl
    | some d => rw [List.flatMap_cons, ih, ofDecls, List.flatMap_cons, ofDecl_eq]

/-- The table of a routine is that of its skeleton. -/
theorem table_eq (params : List (Option ParamGroup)) (block : Option Block) :
    NameTable.ofBindings (Resolution.ofRoutine params block) =
      table (params.map paramNames) (ofBlock block) := by
  have ofBlock_eq : ofBlock block = ofDecls (Resolution.declsOf block) := by
    obtain - | ⟨position, decls, body⟩ := block <;> rfl
  rw [Resolution.ofRoutine, ofParams_eq, ofDecls_eq, ← ofBlock_eq, table]

theorem nodeKind_eq (r : Routine) : r.nodeKind = nodeKind r.kind.nameKind := by
  rw [Routine.nodeKind]
  cases r.kind <;> rfl

/-- Only routines are holders. -/
theorem declHolders_of_ne {parent next : Nat} {d : Option Decl} (rest : List (Option Decl))
    (other : ∀ r, d ≠ some (.routine r)) :
    Session.declHolders parent next (d :: rest) = Session.declHolders parent next rest := by
  rw [Session.declHolders]
  exact other

theorem holdersOf_of_nil {outer : List NameTable} {parent next : Nat} {d : Skeleton}
    (rest : List Skeleton) (none : holders outer parent next d = []) :
    holdersOf outer parent next (d :: rest) = holdersOf outer parent next rest := by
  rw [holdersOf, none]
  rfl

mutual

/-- A routine with scopes attached, and those inside of it. -/
theorem routineHolders_attachRoutine (outer : List NameTable) (parent own : Nat) :
    ∀ r : Routine, Session.routineHolders parent own (Resolution.attachRoutine outer r) =
      (ofRoutine r).holders outer parent own
  | ⟨position, kind, name, params, block, scope⟩ => by
    rw [Resolution.attachRoutine, Session.routineHolders, ofRoutine, holders, nodeKind_eq,
      table_eq, blockHolders_attachBlock? _ own (own + 1) block]
    rfl

theorem blockHolders_attachBlock? (tables : List NameTable) (parent next : Nat) :
    ∀ block : Option Block,
      Session.blockHolders parent next (Resolution.attachBlock? tables block) =
        holdersOf tables parent next (ofBlock block)
  | none => by
    rw [Resolution.attachBlock?, Session.blockHolders, ofBlock, holdersOf]
  | some ⟨position, decls, body⟩ => by
    rw [Resolution.attachBlock?, Resolution.attachBlock, Session.blockHolders, ofBlock]
    exact declHolders_attachDecls tables parent next decls

/-- The routines of declarations with scopes attached are determined by the skeletons. -/
theorem declHolders_attachDecls (tables : List NameTable) (parent next : Nat) :
    ∀ decls : List (Option Decl),
      Session.declHolders parent next (Resolution.attachDecls tables decls) =
        holdersOf tables parent next (ofDecls decls)
  | [] => by rw [Resolution.attachDecls, Session.declHolders, ofDecls, holdersOf]
  | some (.routine r) :: rest => by
    rw [Resolution.attachDecls, Resolution.attachDecl?, Resolution.attachDecl,
      Session.declHolders, ofDecls, ofDecl, holdersOf,
      routineHolders_attachRoutine tables parent next r,
      declHolders_attachDecls tables parent _ rest]
  | none :: rest => by
    rw [Resolution.attachDecls, Resolution.attachDecl?, declHolders_of_ne, ofDecls,
      holdersOf_of_nil, declHolders_attachDecls tables parent next rest]
    · rfl
    · nofun
  | some (.var _) :: rest | some (.vars _ _) :: rest | some (.const _) :: rest
  | some (.consts _ _) :: rest | some (.header _) :: rest => by
    -- no other declaration is a holder, in the file or in the skeleton
    rw [Resolution.attachDecls, Resolution.attachDecl?, Resolution.attachDecl,
      declHolders_of_ne, ofDecls, ofDecl, holdersOf_of_nil,
      declHolders_attachDecls tables parent next rest]
    · rfl
    · nofun

end

mutual

/-- Every routine of a skeleton has a scope. -/
theorem isSome_scope_holders (outer : List NameTable) (parent own : Nat) :
    ∀ d : Skeleton, ∀ holder ∈ d.holders outer parent own, holder.scope.isSome
  | .routine kind name params decls => by
    rw [holders]
    exact List.forall_mem_cons.mpr ⟨rfl, isSome_scope_holdersOf _ own (own + 1) decls⟩
  | .absent | .var _ | .vars _ | .const _ | .consts _ | .header _ _ => by simp [holders]

theorem isSome_scope_holdersOf (outer : List NameTable) (parent next : Nat) :
    ∀ decls : List Skeleton, ∀ holder ∈ holdersOf outer parent next decls, holder.scope.isSome
  | [] => List.forall_mem_nil _
  | d :: rest => by
    rw [holdersOf]
    exact List.forall_mem_append.mpr
      ⟨isSome_scope_holders outer parent next d, isSome_scope_holdersOf outer parent _ rest⟩

end

end Skeleton

/-! ### Files -/

/-- The skeleton of a file. -/
def File.skeleton (file : File) : FileSkeleton :=
  ⟨file.node.kind, Skeleton.ofDecls file.decls⟩

/-- The file with its scope and the routines in it with theirs. -/
def FileSkeleton.holders (skeleton : FileSkeleton) : List Holder :=
  ⟨skeleton.kind, "", some ⟨Skeleton.table [] skeleton.decls, []⟩, none⟩ ::
    Skeleton.holdersOf [Skeleton.table [] skeleton.decls] 0 1 skeleton.decls

namespace File

theorem nameTable_eq (file : File) :
    file.nameTable = Skeleton.table [] file.skeleton.decls := by
  rw [nameTable, Skeleton.ofDecls_eq, Skeleton.table]
  rfl

/-- The holders of a resolved file are those of its skeleton. -/
theorem holders_resolve (file : File) : file.resolve.holders = file.skeleton.holders := by
  have sameKind : file.resolve.node.kind = file.node.kind := by
    rw [resolve_eq]
    cases file <;> rfl
  rw [holders, sameKind, scope_resolve, decls_resolve, Skeleton.declHolders_attachDecls,
    nameTable_eq]
  rfl

/-- Every holder of a resolved file has a scope. -/
theorem isSome_scope_of_mem_holders (file : File) :
    ∀ holder ∈ file.resolve.holders, holder.scope.isSome := by
  rw [holders_resolve, FileSkeleton.holders]
  exact List.forall_mem_cons.mpr ⟨rfl, Skeleton.isSome_scope_holdersOf _ 0 1 _⟩

end File

end PascalCompiler
