import PascalCompiler.Proofs.Generation.Grouping

/-!
# Which names are written

Every identifier that a script mentions is written for an identifier of the source, and it
is that identifier's own spelling that decides. What the identifier denotes plays no part,
and neither do the other places where the same thing is mentioned.

Scopes do not tell upper case from lower case. So two spellings of one name denote the same
thing in the source and different things in the script.

## Main definitions

* `Script.Stmt.names`: the names in a script
* `File.occurrences`: the identifiers of a file that are written

## Main results

* `Generation.names_script`: the names in a script are those of the occurrences, one by one
* `File.names_alike_iff`: which occurrences are written alike
-/

namespace PascalCompiler

/-! ### Names in scripts -/

namespace Script

namespace Expr

mutual

/-- The names in an expression, in the order of the text. -/
def names : Expr → List String
  | .text _ | .code _ | .integer _ => []
  | .name word => [word]
  | .call callee args => callee :: namesAll args
  | .parens inner => names inner
  | .binary _ left right => names left ++ names right
  | .array elements => namesAll elements

/-- The names in a list of expressions. -/
def namesAll : List Expr → List String
  | [] => []
  | e :: rest => names e ++ namesAll rest

end

end Expr

namespace Stmt

mutual

/-- The names in a statement or function, in the order of the text. The name that a handler
binds the exception to is not counted. -/
def names : Stmt → List String
  | .empty => []
  | .declare list => list
  | .define name value | .assign name value => name :: value.names
  | .call callee args => callee :: Expr.namesAll args
  | .block _ body => namesAll body
  | .ifThen condition onTrue => condition.names ++ names onTrue
  | .ifElse condition onTrue onFalse => condition.names ++ (names onTrue ++ names onFalse)
  | .tryCatch body other | .tryFinally body other => namesAll body ++ namesAll other
  | .function name params body => name :: (params.flatten ++ names body)

/-- The names in a list of statements. -/
def namesAll : List Stmt → List String
  | [] => []
  | s :: rest => names s ++ namesAll rest

end

theorem namesAll_append (first second : List Stmt) :
    namesAll (first ++ second) = namesAll first ++ namesAll second := by
  induction first with
  | nil => rfl
  | cons s rest ih => rw [List.cons_append, namesAll, namesAll, ih, List.append_assoc]

end Stmt

end Script

/-! ### Occurrences in trees -/

namespace Expr

mutual

/-- The identifiers in an expression, in source order. -/
def occurrences : Expr → List Ident
  | .text .. | .control .. | .integer .. => []
  | .parens _ inner => occurrences? inner
  | .binary _ _ left right => occurrences? left ++ occurrences? right
  | .call _ target args => target.toList ++ occurrencesAll args
  | .setOf _ elements => occurrencesIn elements

/-- Those in an expression that may be missing. -/
def occurrences? : Option Expr → List Ident
  | none => []
  | some e => occurrences e

/-- Those in a list of expressions. -/
def occurrencesAll : List (Option Expr) → List Ident
  | [] => []
  | e :: rest => occurrences? e ++ occurrencesAll rest

/-- Those in the elements of a set constructor that are expressions. -/
def occurrencesIn : List (Option Element) → List Ident
  | some (.expr e) :: rest => occurrences e ++ occurrencesIn rest
  | _ :: rest => occurrencesIn rest
  | [] => []

end

end Expr

namespace Stmt

mutual

/-- The identifiers in a statement, in source order. -/
def occurrences : Stmt → List Ident
  | .assign _ target _ source => target.toList ++ Expr.occurrences? source
  | .call _ target args => target.toList ++ Expr.occurrencesAll args
  | .compound ⟨_, body⟩ => occurrencesAll body
  | .ifThen _ condition onTrue onFalse =>
    Expr.occurrences? condition ++ (occurrences? onTrue ++ occurrences? onFalse)
  | .tryExcept _ body (some (.all handlers)) => occurrencesAll body ++ occurrencesAll handlers
  | .tryExcept _ body _ => occurrencesAll body
  | .tryFinally _ body cleanup => occurrencesAll body ++ occurrencesAll cleanup

/-- Those in a statement that may be missing. -/
def occurrences? : Option Stmt → List Ident
  | none => []
  | some s => occurrences s

/-- Those in a list of statements. -/
def occurrencesAll : List (Option Stmt) → List Ident
  | [] => []
  | s :: rest => occurrences? s ++ occurrencesAll rest

end

end Stmt

/-- The identifiers that are written for a variable declaration. Each variable after the first
is followed by the first, whose value it gets. -/
def VarDecl.occurrences (d : VarDecl) : List Ident :=
  match d.names, d.value with
  | names, none => names.reduceOption
  | [], some _ => []
  | first :: others, some value =>
    first.toList ++ (value.occurrences ++
      others.reduceOption.flatMap fun other => other :: first.toList)

/-- The identifiers of a constant declaration. -/
def ConstDecl.occurrences (d : ConstDecl) : List Ident :=
  d.name.toList ++ Expr.occurrences? d.value

/-- The identifiers of a parameter list. -/
def paramOccurrences (params : List (Option ParamGroup)) : List Ident :=
  params.reduceOption.flatMap fun group => group.names.reduceOption

namespace Decl

mutual

/-- The identifiers that are written for a declaration. For a forward header none is. -/
def occurrences : Decl → List Ident
  | .var d => d.occurrences
  | .vars _ list => list.reduceOption.flatMap VarDecl.occurrences
  | .const d => d.occurrences
  | .consts _ list => list.reduceOption.flatMap ConstDecl.occurrences
  | .header _ => []
  | .routine ⟨_, _, name, params, body, _⟩ =>
    name.toList ++ (paramOccurrences params ++ occurrencesIn body)

/-- Those in a block: its declarations, then its statements. -/
def occurrencesIn : Option Block → List Ident
  | none => []
  | some ⟨_, list, none⟩ => occurrencesAll list
  | some ⟨_, list, some body⟩ => occurrencesAll list ++ Stmt.occurrencesAll body.body

/-- Those in a list of declarations. -/
def occurrencesAll : List (Option Decl) → List Ident
  | [] => []
  | none :: rest => occurrencesAll rest
  | some d :: rest => occurrences d ++ occurrencesAll rest

end

end Decl

/-- The identifiers of a file that are written, in the order of the text. -/
def File.occurrences : File → List Ident
  | .program file => Decl.occurrencesIn file.block
  | .unit file =>
    Decl.occurrencesAll ((file.interfacePart.map UnitPart.decls).getD []) ++
      Decl.occurrencesAll ((file.implementationPart.map UnitPart.decls).getD [])

/-- How identifiers are written. -/
def spelled (idents : List Ident) : List String :=
  idents.map fun ident => Script.identifier ident.name

theorem spelled_append (first second : List Ident) :
    spelled (first ++ second) = spelled first ++ spelled second :=
  List.map_append

namespace Generation

/-! ### Identifiers -/

theorem names_nameOf (context : Context) (ident : Option Ident) :
    Yields (fun name => [name] = spelled ident.toList) (answer context (nameOf ident)) := by
  cases ident with
  | none => exact .error _
  | some ident =>
    rw [nameOf]
    split
    · exact .error _
    · exact .pure rfl

theorem names_namesOf (context : Context) (idents : List (Option Ident)) :
    Yields (fun names => names = spelled idents.reduceOption)
      (answer context (namesOf idents)) := by
  induction idents with
  | nil => exact .pure rfl
  | cons ident rest ih =>
    rw [namesOf]
    refine .bind (names_nameOf context ident) fun name first => ?_
    refine .bind ih fun names others => .pure ?_
    cases ident with
    | none => cases first
    | some ident =>
      rw [others]
      exact congrArg (· ++ spelled rest.reduceOption) first

/-! ### Expressions -/

mutual

/-- The names in the script of an expression are those of its identifiers. -/
theorem names_expr (context : Context) :
    ∀ e : Expr,
      Yields (fun script => script.names = spelled e.occurrences) (answer context (expr e))
  | .text _ value => by
    rw [expr]
    exact .pure rfl
  | .control _ code => by
    rw [expr]
    split
    · exact .pure rfl
    · exact .error _
  | .integer _ value => by
    rw [expr]
    exact .pure rfl
  | .parens position inner => by
    rw [expr, Expr.occurrences]
    exact .visit (.bind (names_expr? _ inner) fun script same => .pure same)
  | .binary position op left right => by
    rw [expr, Expr.occurrences]
    apply Yields.visit
    cases Script.Operator.ofSource? op with
    | none => exact .error _
    | some operator =>
      refine .bind (names_expr? _ left) fun script first =>
        .bind (names_expr? _ right) fun script' second => .pure ?_
      rw [Script.Expr.names, first, second, spelled_append]
  | .call position target args => by
    rw [expr, Expr.occurrences]
    refine .visit (.bind (yields_callTarget _ target) fun ident same => ?_)
    subst same
    cases args with
    | nil =>
      refine .bind .any fun scope _ => .pure ?_
      split <;> rfl
    | cons arg args =>
      refine .bind (names_exprs _ (arg :: args)) fun scripts all => .pure ?_
      rw [Script.Expr.names, all]
      rfl
  | .setOf position elements => by
    rw [expr, Expr.occurrences]
    exact .visit (.bind (names_setElements _ elements) fun scripts same => .pure same)

theorem names_expr? (context : Context) :
    ∀ e : Option Expr,
      Yields (fun script => script.names = spelled (Expr.occurrences? e)) (answer context (expr? e))
  | none => by
    rw [expr?]
    exact .error _
  | some e => by
    rw [expr?, Expr.occurrences?]
    exact names_expr context e

theorem names_exprs (context : Context) :
    ∀ list : List (Option Expr),
      Yields (fun scripts => Script.Expr.namesAll scripts = spelled (Expr.occurrencesAll list))
        (answer context (exprs list))
  | [] => by
    rw [exprs]
    exact .pure rfl
  | e :: rest => by
    rw [exprs, Expr.occurrencesAll]
    refine .bind (names_expr? context e) fun script first =>
      .bind (names_exprs context rest) fun scripts others => .pure ?_
    rw [Script.Expr.namesAll, first, others, spelled_append]

theorem names_setElements (context : Context) :
    ∀ list : List (Option Element),
      Yields (fun scripts => Script.Expr.namesAll scripts = spelled (Expr.occurrencesIn list))
        (answer context (setElements list))
  | [] => by
    rw [setElements]
    exact .pure rfl
  | none :: rest | some (.range _) :: rest => by
    rw [setElements, setElement]
    exact .error _
  | some (.expr e) :: rest => by
    rw [setElements, setElement, Expr.occurrencesIn]
    refine .bind (names_expr context e) fun script first =>
      .bind (names_setElements context rest) fun scripts others => .pure ?_
    rw [Script.Expr.namesAll, first, others, spelled_append]

end

/-! ### Statements -/

theorem names_assignmentTarget (context : Context) (target : Option Ident) :
    Yields (fun name => [name] = spelled target.toList)
      (answer context (assignmentTarget target)) := by
  cases target with
  | none => exact .error _
  | some ident => exact names_nameOf context (some ident)

mutual

/-- The names in the script of a statement are those of its identifiers. -/
theorem names_stmt (context : Context) :
    ∀ s : Stmt,
      Yields (fun script => script.names = spelled s.occurrences) (answer context (stmt s))
  | .assign position target op source => by
    rw [stmt, Stmt.occurrences]
    refine .visit (.bind (names_assignmentTarget _ target) fun name first => ?_)
    split
    · refine .bind (names_expr? _ source) fun script second => .pure ?_
      rw [Script.Stmt.names, second, spelled_append, ← first, List.singleton_append]
    · exact .error _
  | .call position target args => by
    rw [stmt, Stmt.occurrences]
    refine .visit (.bind (yields_callTarget _ target) fun ident same => ?_)
    subst same
    refine .bind (names_exprs _ args) fun scripts all => .pure ?_
    rw [Script.Stmt.names, all]
    rfl
  | .compound ⟨position, body⟩ => by
    rw [stmt, Stmt.occurrences]
    exact names_compound context ⟨position, body⟩
  | .ifThen position condition onTrue none => by
    rw [stmt, Stmt.occurrences, Stmt.occurrences?, List.append_nil]
    refine .visit (.bind (names_expr? _ condition) fun test first =>
      .bind (names_branch _ onTrue) fun script second => .pure ?_)
    rw [Script.Stmt.names, first, second, spelled_append]
  | .ifThen position condition onTrue (some onFalse) => by
    rw [stmt, Stmt.occurrences, Stmt.occurrences?]
    refine .visit (.bind (names_expr? _ condition) fun test first =>
      .bind (names_branch _ onTrue) fun script second =>
      .bind (names_stmt _ onFalse) fun script' third => .pure ?_)
    rw [Script.Stmt.names, first, second, third, spelled_append, spelled_append]
  | .tryExcept position body none => by
    rw [stmt, Stmt.occurrences]
    refine .visit (.bind (names_stmts _ body) fun scripts all => .pure ?_)
    rw [Script.Stmt.names, all, Script.Stmt.namesAll, List.append_nil]
    exact nofun
  | .tryExcept position body (some (.all handlers)) => by
    rw [stmt, Stmt.occurrences]
    refine .visit (.bind (names_stmts _ body) fun scripts first =>
      .bind (names_stmts _ handlers) fun scripts' second => .pure ?_)
    rw [Script.Stmt.names, first, second, spelled_append]
  | .tryExcept position body (some (.clause clause)) => by
    rw [stmt]
    exact .error _
  | .tryFinally position body cleanup => by
    rw [stmt, Stmt.occurrences]
    refine .visit (.bind (names_stmts _ body) fun scripts first =>
      .bind (names_stmts _ cleanup) fun scripts' second => .pure ?_)
    rw [Script.Stmt.names, first, second, spelled_append]

theorem names_compound (context : Context) :
    ∀ value : Compound,
      Yields (fun script => script.names = spelled (Stmt.occurrencesAll value.body))
        (answer context (compound value))
  | ⟨position, body⟩ => by
    rw [compound]
    exact .visit (.bind .any fun _ _ => .bind (names_stmts _ body) fun scripts all => .pure all)

theorem names_branch (context : Context) :
    ∀ s : Option Stmt,
      Yields (fun script => script.names = spelled (Stmt.occurrences? s))
        (answer context (branch s))
  | none => by
    rw [branch]
    exact .pure rfl
  | some s => by
    rw [branch, Stmt.occurrences?]
    exact names_stmt context s

theorem names_stmts (context : Context) :
    ∀ list : List (Option Stmt),
      Yields (fun scripts => Script.Stmt.namesAll scripts = spelled (Stmt.occurrencesAll list))
        (answer context (stmts list))
  | [] => by
    rw [stmts]
    exact .pure rfl
  | none :: rest => by
    rw [stmts, stmt?]
    exact .error _
  | some s :: rest => by
    rw [stmts, stmt?, Stmt.occurrencesAll, Stmt.occurrences?]
    refine .bind (names_stmt context s) fun script first =>
      .bind (names_stmts context rest) fun scripts others => .pure ?_
    rw [Script.Stmt.namesAll, first, others, spelled_append]

end

/-! ### Declarations -/

/-- The variables after the first are set to the first. -/
theorem namesAll_define {name : String} {first : Option Ident}
    (same : [name] = spelled first.toList) (others : List Ident) :
    Script.Stmt.namesAll ((spelled others).map fun other => .define other (.name name)) =
      spelled (others.flatMap fun other => other :: first.toList) := by
  induction others with
  | nil => rfl
  | cons other rest ih =>
    have here : Script.Stmt.names (.define (Script.identifier other.name) (.name name)) =
        spelled (other :: first.toList) := congrArg (Script.identifier other.name :: ·) same
    rw [List.flatMap_cons, spelled_append, ← ih, ← here]
    rfl

theorem names_varDecl (context : Context) (d : VarDecl) :
    Yields (fun scripts => Script.Stmt.namesAll scripts = spelled d.occurrences)
      (answer context (varDecl (some d))) := by
  obtain ⟨position, names, type, value⟩ := d
  rw [varDecl, VarDecl.occurrences]
  apply Yields.visit
  cases names with
  | nil => exact .error _
  | cons first others =>
    cases value with
    | none =>
      refine .bind (names_namesOf _ (first :: others)) fun names same => .pure ?_
      rw [Script.Stmt.namesAll, Script.Stmt.names, Script.Stmt.namesAll, List.append_nil, same]
    | some value =>
      -- the value is written once, for the first variable
      refine .bind (names_nameOf _ first) fun name isFirst =>
        .bind (names_expr _ value) fun script isValue =>
        .bind (names_namesOf _ others) fun names same => .pure ?_
      rw [Script.Stmt.namesAll, Script.Stmt.names, isValue, same, namesAll_define isFirst,
        spelled_append, spelled_append, ← isFirst, List.cons_append, List.singleton_append]

theorem names_varDecls (context : Context) (list : List (Option VarDecl)) :
    Yields (fun scripts => Script.Stmt.namesAll scripts =
      spelled (list.reduceOption.flatMap VarDecl.occurrences))
      (answer context (varDecls list)) := by
  induction list with
  | nil => exact .pure rfl
  | cons d rest ih =>
    rw [varDecls]
    cases d with
    | none => exact .error _
    | some d =>
      refine .bind (names_varDecl context d) fun scripts first =>
        .bind ih fun scripts' others => .pure ?_
      rw [Script.Stmt.namesAll_append, first, others, ← spelled_append]
      rfl

theorem names_constDecl (context : Context) (d : ConstDecl) :
    Yields (fun scripts => Script.Stmt.namesAll scripts = spelled d.occurrences)
      (answer context (constDecl (some d))) := by
  obtain ⟨position, name, type, value⟩ := d
  rw [constDecl, ConstDecl.occurrences]
  apply Yields.visit
  cases value with
  | none => exact .error _
  | some value =>
    refine .bind (names_nameOf _ name) fun name isFirst =>
      .bind (names_expr _ value) fun script isValue => .pure ?_
    rw [Script.Stmt.namesAll, Script.Stmt.names, isValue, spelled_append, ← isFirst,
      Script.Stmt.namesAll, List.append_nil, Expr.occurrences?, List.singleton_append]

theorem names_constDecls (context : Context) (list : List (Option ConstDecl)) :
    Yields (fun scripts => Script.Stmt.namesAll scripts =
      spelled (list.reduceOption.flatMap ConstDecl.occurrences))
      (answer context (constDecls list)) := by
  induction list with
  | nil => exact .pure rfl
  | cons d rest ih =>
    rw [constDecls]
    cases d with
    | none => exact .error _
    | some d =>
      refine .bind (names_constDecl context d) fun scripts first =>
        .bind ih fun scripts' others => .pure ?_
      rw [Script.Stmt.namesAll_append, first, others, ← spelled_append]
      rfl

theorem names_paramGroups (context : Context) (list : List (Option ParamGroup)) :
    Yields (fun groups => groups.flatten = spelled (paramOccurrences list))
      (answer context (paramGroups list)) := by
  induction list with
  | nil => exact .pure rfl
  | cons group rest ih =>
    rw [paramGroups]
    cases group with
    | none => exact .error _
    | some group =>
      refine .bind (.visit (names_namesOf _ group.names)) fun names first =>
        .bind ih fun groups others => .pure ?_
      rw [List.flatten_cons, first, others, ← spelled_append]
      rfl

section Attached

open Resolution

mutual

/-- The names in the script of a declaration with scopes attached are those of its
identifiers. -/
theorem names_decl (context : Context) (tables : List NameTable) :
    ∀ d : Decl, Yields (fun scripts => Script.Stmt.namesAll scripts = spelled d.occurrences)
      (answer context (decl (attachDecl tables d)))
  | .var d => by
    rw [attachDecl, decl, Decl.occurrences]
    exact names_varDecl context d
  | .vars position list => by
    rw [attachDecl, decl, Decl.occurrences]
    exact .visit (names_varDecls _ list)
  | .const d => by
    rw [attachDecl, decl, Decl.occurrences]
    exact names_constDecl context d
  | .consts position list => by
    rw [attachDecl, decl, Decl.occurrences]
    exact .visit (names_constDecls _ list)
  -- nothing is written for a header
  | .header h => by
    rw [attachDecl, decl]
    exact .pure rfl
  | .routine r => by
    rw [attachDecl, decl]
    refine .bind (names_routine context tables r) fun script same => .pure ?_
    rw [Script.Stmt.namesAll, same, Script.Stmt.namesAll, List.append_nil]

theorem names_routine (context : Context) (tables : List NameTable) :
    ∀ r : Routine, Yields (fun script => script.names = spelled (Decl.occurrences (.routine r)))
      (answer context (routine (attachRoutine tables r)))
  | ⟨position, kind, name, params, body, scope⟩ => by
    rw [attachRoutine, routine, Decl.occurrences]
    refine .visit (.bind (names_nameOf _ name) fun name first =>
      .bind (names_paramGroups _ params) fun groups second =>
      .bind (names_block? _ _ body) fun script third => .pure ?_)
    rw [Script.Stmt.names, second, third, spelled_append, spelled_append, ← first,
      List.singleton_append]

theorem names_block? (context : Context) (tables : List NameTable) :
    ∀ b : Option Block,
      Yields (fun script => script.names = spelled (Decl.occurrencesIn b))
        (answer context (block? (attachBlock? tables b)))
  | none => by
    rw [attachBlock?, block?]
    exact .error _
  | some ⟨position, list, none⟩ => by
    rw [attachBlock?, attachBlock, block?, block, Decl.occurrencesIn]
    exact .visit (.bind .any fun _ _ => .bind (names_decls _ tables list) fun scripts all =>
      .pure all)
  | some ⟨position, list, some body⟩ => by
    rw [attachBlock?, attachBlock, block?, block, Decl.occurrencesIn]
    refine .visit (.bind .any fun _ _ => .bind (names_decls _ tables list) fun scripts first =>
      .bind (names_compound _ body) fun script second => .pure ?_)
    rw [Script.Stmt.names, Script.Stmt.namesAll_append, first, Script.Stmt.namesAll, second,
      Script.Stmt.namesAll, List.append_nil, spelled_append]

theorem names_decls (context : Context) (tables : List NameTable) :
    ∀ list : List (Option Decl),
      Yields (fun scripts => Script.Stmt.namesAll scripts = spelled (Decl.occurrencesAll list))
        (answer context (decls (attachDecls tables list)))
  | [] => by
    rw [attachDecls, decls]
    exact .pure rfl
  | none :: rest => by
    rw [attachDecls, attachDecl?, decls, decl?]
    exact .error _
  | some d :: rest => by
    rw [attachDecls, attachDecl?, decls, decl?, Decl.occurrencesAll]
    refine .bind (names_decl context tables d) fun scripts first =>
      .bind (names_decls context tables rest) fun scripts' others => .pure ?_
    rw [Script.Stmt.namesAll_append, first, others, spelled_append]

end

end Attached

/-! ### Files -/

theorem names_unitPart (context : Context) (tables : List NameTable) (of : UnitPart → Node)
    (part : Option UnitPart) :
    Yields (fun scripts => Script.Stmt.namesAll scripts =
      spelled (Decl.occurrencesAll ((part.map UnitPart.decls).getD [])))
      (answer context (unitPart of (part.map (Resolution.attachPart tables)))) := by
  cases part with
  | none => exact .pure rfl
  | some part => exact .visit (names_decls _ tables part.decls)

/-- The names in the script of a file are those of its occurrences, one by one. -/
theorem names_script (file : File) :
    Yields (fun scripts => Script.Stmt.namesAll scripts = spelled file.occurrences)
      (script file.resolve) := by
  rw [script_eq, file.resolve_eq]
  cases file with
  | program f =>
    rw [Resolution.attachFile, Generation.file, File.occurrences]
    refine .bind (names_block? _ _ f.block) fun script same => .pure ?_
    rw [Script.Stmt.namesAll, same, Script.Stmt.namesAll, List.append_nil]
  | unit f =>
    rw [Resolution.attachFile, Generation.file, File.occurrences]
    refine .bind (names_unitPart _ _ _ f.interfacePart) fun scripts first =>
      .bind (names_unitPart _ _ _ f.implementationPart) fun scripts' second => .pure ?_
    rw [Script.Stmt.namesAll_append, first, second, spelled_append]

end Generation

/-! ### Names that differ in case -/

theorem length_key (name : String) : (NameTable.key name).length = name.length :=
  String.length_map

/-- Names with the same key are written alike only if they are spelled alike. A renamed word
is longer, so its key is another one. -/
theorem identifier_eq_iff_of_key {first second : String}
    (sameKey : NameTable.key first = NameTable.key second) :
    Script.identifier first = Script.identifier second ↔ first = second := by
  constructor
  · intro same
    have length : first.length = second.length := by
      rw [← length_key first, ← length_key second, sameKey]
    -- a name that is another one with a dollar sign behind it is longer
    rcases Script.identifier_eq_cases same with same | rfl | rfl
    · exact same
    · rw [String.length_append] at length
      exact absurd length (by simp)
    · rw [String.length_append] at length
      exact absurd length (by simp)
  · rintro rfl
    rfl

/-- Names with different keys are written differently, unless one has a dollar sign. -/
theorem identifier_ne_of_key {first second : String} (noDollar : '$' ∉ first.toList)
    (noDollar' : '$' ∉ second.toList) (otherKey : NameTable.key first ≠ NameTable.key second) :
    Script.identifier first ≠ Script.identifier second := by
  intro same
  apply otherKey
  rw [Script.identifier_injective_of_not_mem noDollar noDollar' same]

/-- The script of a file that compiles mentions the identifiers of the file one by one. Two of
them that the scopes do not tell apart are written alike if and only if they are spelled
alike, whatever they denote. Two that the scopes do tell apart are written differently,
unless one of them has a dollar sign. -/
theorem File.names_alike_iff {file : File} {text : String} (compiled : file.compile = .ok text) :
    ∃ script, Generation.script file.resolve = .ok script ∧ text = Script.print script ∧
      Script.Stmt.namesAll script =
        file.occurrences.map (fun ident => Script.identifier ident.name) ∧
      ∀ first ∈ file.occurrences, ∀ second ∈ file.occurrences,
        (NameTable.key first.name = NameTable.key second.name →
          (Script.identifier first.name = Script.identifier second.name ↔
            first.name = second.name)) ∧
        (NameTable.key first.name ≠ NameTable.key second.name →
          '$' ∉ first.name.toList → '$' ∉ second.name.toList →
          Script.identifier first.name ≠ Script.identifier second.name) := by
  obtain ⟨script, generated, same⟩ := File.script_of_compile compiled
  refine ⟨script, generated, same, Generation.names_script file script generated, ?_⟩
  intro first _ second _
  exact ⟨identifier_eq_iff_of_key, fun otherKey noDollar noDollar' =>
    identifier_ne_of_key noDollar noDollar' otherKey⟩

section Sample

/-- A program that declares `Total` and assigns to it. -/
def totalProgram (use : String) : File :=
  .program
    { block := some
        { position := .unknown
          decls := [some (.var { names := [some ⟨.unknown, "Total"⟩] })]
          body := some ⟨.unknown, [some (.assign .unknown (some ⟨.unknown, use⟩) ":="
            (some (.call .unknown (some ⟨.unknown, "Sum"⟩) [some (.integer .unknown 1)])))]⟩ } }

end Sample

/-- Where `Total` is spelled as it is declared, it is written as it is declared. -/
theorem File.names_alike_total :
    ∃ script, Generation.script (totalProgram "Total").resolve = .ok script ∧
      Script.print script = "var Total;Total=Sum(1);" ∧
      Script.Stmt.namesAll script = ["Total", "Total", "Sum"] ∧
      Script.identifier "Total" ≠ Script.identifier "Sum" := by
  have compiled : (totalProgram "Total").compile = .ok "var Total;Total=Sum(1);" :=
    eq_ok_of_mem_toOption (by decide +kernel)
  obtain ⟨script, generated, text, names, alike⟩ := names_alike_iff compiled
  refine ⟨script, generated, text.symm, names.trans (by decide +kernel), ?_⟩
  obtain ⟨-, apart⟩ := alike ⟨.unknown, "Total"⟩ (.head _) ⟨.unknown, "Sum"⟩
    (.tail _ (.tail _ (.head _)))
  exact apart (by decide +kernel) (by decide +kernel) (by decide +kernel)

/-- The only scope of the program has one entry, for `total`. The variable is declared as `Total`
and assigned to as `total`, and the two are written as different names. -/
theorem File.names_apart_total :
    (totalProgram "total").resolve.node.scope.map (fun scope => scope.tables.map (·.entries)) =
        some [[("total", .var)]] ∧
      NameTable.key "Total" = "total" ∧ NameTable.key "total" = "total" ∧
      (totalProgram "total").occurrences.map Ident.name = ["Total", "total", "Sum"] ∧
      (totalProgram "total").compile = .ok "var Total;total=Sum(1);" ∧
      Script.identifier "Total" ≠ Script.identifier "total" := by
  have compiled : (totalProgram "total").compile = .ok "var Total;total=Sum(1);" :=
    eq_ok_of_mem_toOption (by decide +kernel)
  exact ⟨by decide +kernel, by decide +kernel, by decide +kernel, by decide +kernel, compiled,
    by decide +kernel⟩

end PascalCompiler
