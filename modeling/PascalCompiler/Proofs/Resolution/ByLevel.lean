import PascalCompiler.Resolution.Basic

/-!
# Resolution level by level

Each level of a file binds the names of its parameters and then those of its
declarations, in source order; the parts that list several declarations are
flattened. A routine binds its own name at the level around it.

The scope of a level is the table of all names bound at it, inside the tables of
the levels around it. With these tables at hand, the scopes in a declaration can be
attached without looking at anything around it.

## Main definitions

* `Resolution.ofDecls`: the names that a list of declarations binds
* `Resolution.ofRoutine`: the names bound at the level of a routine
* `Resolution.defectsOf`: the defects of a list of declarations
* `Resolution.attachDecls`: a list of declarations with scopes attached
* `Resolution.attachFile`: a file with scopes attached
-/

namespace PascalCompiler

namespace Resolution

/-- A name with what it denotes. -/
abbrev Binding := String × NameKind

/-- The binding of an identifier. An absent or empty one binds nothing. -/
def ofIdent (kind : NameKind) : Option Ident → List Binding
  | none => []
  | some ident => if ident.name = "" then [] else [(ident.name, kind)]

/-- The bindings of a variable declaration. -/
def ofVar : Option VarDecl → List Binding
  | none => []
  | some d => d.names.flatMap (ofIdent .var)

/-- The binding of a constant declaration. -/
def ofConst : Option ConstDecl → List Binding
  | none => []
  | some d => ofIdent .constant d.name

/-- The bindings of a parameter list. -/
def ofParams (params : List (Option ParamGroup)) : List Binding :=
  params.flatMap fun
    | none => []
    | some group => group.names.flatMap (ofIdent .var)

/-- The bindings of a declaration at its own level. -/
def ofDecl : Option Decl → List Binding
  | none => []
  | some (.var d) => ofVar (some d)
  | some (.vars _ list) => list.flatMap ofVar
  | some (.const d) => ofConst (some d)
  | some (.consts _ list) => list.flatMap ofConst
  | some (.header h) => ofIdent h.kind.nameKind h.name
  | some (.routine r) => ofIdent r.kind.nameKind r.name

/-- The bindings of a list of declarations. -/
def ofDecls (decls : List (Option Decl)) : List Binding :=
  decls.flatMap ofDecl

/-- The declarations of a block that may be absent. -/
def declsOf (block : Option Block) : List (Option Decl) :=
  (block.map Block.decls).getD []

/-- The bindings at the level of a routine with the given parameters and block. -/
def ofRoutine (params : List (Option ParamGroup)) (block : Option Block) : List Binding :=
  ofParams params ++ ofDecls (declsOf block)

/-! ### Defects -/

/-- The defect of an identifier that a node of the given kind declares. -/
def identDefects (position : Position) (kind : Kind) : Option Ident → List Defect
  | none => [.unnamed position kind]
  | some ident => if ident.name = "" then [.unnamed position kind] else []

/-- The defects of a variable declaration. -/
def varDefects : Option VarDecl → List Defect
  | none => [.noVariableDeclaration]
  | some d => d.names.flatMap (identDefects d.position .variableDeclaration)

/-- The defects of a constant declaration. -/
def constDefects : Option ConstDecl → List Defect
  | none => [.noConstantDeclaration]
  | some d => identDefects d.position .constantDeclaration d.name

/-- The defects of a parameter list. -/
def paramDefects (params : List (Option ParamGroup)) : List Defect :=
  params.flatMap fun
    | none => [.noParameterDeclaration]
    | some group => group.names.flatMap (identDefects group.position .valueParameter)

mutual

/-- The defects of a declaration. -/
def declDefects : Decl → List Defect
  | .var d => varDefects (some d)
  | .vars _ list => list.flatMap varDefects
  | .const d => constDefects (some d)
  | .consts _ list => list.flatMap constDefects
  | .header h => identDefects h.position h.nodeKind h.name
  | .routine r => routineDefects r

/-- The defects of a routine: of its name, its parameters and its block. -/
def routineDefects : Routine → List Defect
  | ⟨position, kind, name, params, block, scope⟩ =>
    identDefects position (Routine.nodeKind ⟨position, kind, name, params, block, scope⟩) name ++
      paramDefects params ++ blockDefects block

/-- The defects of a block that may be absent. -/
def blockDefects : Option Block → List Defect
  | none => []
  | some ⟨_, decls, _⟩ => defectsOf decls

/-- The defects of a list of declarations. -/
def defectsOf : List (Option Decl) → List Defect
  | [] => []
  | none :: rest => .noDeclaration :: defectsOf rest
  | some d :: rest => declDefects d ++ defectsOf rest

end

theorem blockDefects_eq (block : Option Block) :
    blockDefects block = defectsOf (declsOf block) := by
  obtain - | ⟨position, decls, body⟩ := block
  · rw [blockDefects, declsOf, Option.map_none, Option.getD_none, defectsOf]
  · rw [blockDefects, declsOf, Option.map_some, Option.getD_some]

theorem defectsOf_append (first second : List (Option Decl)) :
    defectsOf (first ++ second) = defectsOf first ++ defectsOf second := by
  induction first with
  | nil => rw [List.nil_append, defectsOf, List.nil_append]
  | cons d rest ih =>
    cases d with
    | none => rw [List.cons_append, defectsOf, ih, defectsOf, List.cons_append]
    | some d => rw [List.cons_append, defectsOf, ih, defectsOf, List.append_assoc]

/-! ### Scopes -/

mutual

/-- A declaration with scopes attached, inside the given tables. -/
def attachDecl (outer : List NameTable) : Decl → Decl
  | .routine r => .routine (attachRoutine outer r)
  | .var d => .var d
  | .vars position list => .vars position list
  | .const d => .const d
  | .consts position list => .consts position list
  | .header h => .header h

/-- A routine with scopes attached, inside the given tables. -/
def attachRoutine (outer : List NameTable) : Routine → Routine
  | ⟨position, kind, name, params, block, _⟩ =>
    let names := NameTable.ofBindings (ofRoutine params block)
    ⟨position, kind, name, params, attachBlock? (names :: outer) block, some ⟨names, outer⟩⟩

/-- A block with scopes attached, where the given tables are visible. -/
def attachBlock (tables : List NameTable) : Block → Block
  | ⟨position, decls, body⟩ => ⟨position, attachDecls tables decls, body⟩

/-- A block that may be absent with scopes attached. -/
def attachBlock? (tables : List NameTable) : Option Block → Option Block
  | none => none
  | some b => some (attachBlock tables b)

/-- A declaration that may be absent with scopes attached. -/
def attachDecl? (tables : List NameTable) : Option Decl → Option Decl
  | none => none
  | some d => some (attachDecl tables d)

/-- A list of declarations with scopes attached. -/
def attachDecls (tables : List NameTable) : List (Option Decl) → List (Option Decl)
  | [] => []
  | d :: rest => attachDecl? tables d :: attachDecls tables rest

end

/-- A part of a unit with scopes attached. -/
def attachPart (tables : List NameTable) (part : UnitPart) : UnitPart :=
  { part with decls := attachDecls tables part.decls }

end Resolution

/-- The table of the names bound at the level of a file. -/
def File.nameTable (file : File) : NameTable :=
  NameTable.ofBindings (Resolution.ofDecls file.decls)

/-- A file with a scope attached to it and to every routine in it. -/
def Resolution.attachFile (file : File) : File :=
  let names := file.nameTable
  match file with
  | .program f =>
    .program { f with block := attachBlock? [names] f.block, scope := some ⟨names, []⟩ }
  | .unit f =>
    .unit
      { f with
        interfacePart := f.interfacePart.map (attachPart [names])
        implementationPart := f.implementationPart.map (attachPart [names])
        scope := some ⟨names, []⟩ }

end PascalCompiler
