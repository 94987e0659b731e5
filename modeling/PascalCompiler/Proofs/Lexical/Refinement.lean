import PascalCompiler.Compile
import PascalCompiler.Proofs.Generation.Stack
import PascalCompiler.Proofs.Lexical.Statements
import PascalCompiler.Proofs.Resolution.Traversal

/-!
# Compiling is lexical translation

Compiling attaches a scope to every file and routine and then walks the tree
with the visited nodes at hand; the lexical translator does neither. They give
the same text, and one fails where the other does.

Resolution reports the defects of all declarations before anything is
generated, while the translator meets them on its way. `Compiles` puts the
defects of a part beside its generation, so that both are followed through the
tree together.

## Main definitions

* `Lexical.Compiles`: a computation guarded by defects, and the text it has

## Main results

* `Lexical.compiles_decl`: declarations compile to their text, scopes attached
* `File.compile_eq_ok_iff_translate`: compiling gives a text exactly if
  translating does, and the same one
-/

namespace PascalCompiler

namespace Lexical

open Generation (answer)

/-! ### Computations guarded by defects -/

section Compiles

variable {α β γ δ : Type} {context : Context} {print : α → β} {print' : γ → δ}
variable {descent : Descent α} {text : Option β} {next : α → Descent γ} {more : β → Option δ}
variable {defects others : List Resolution.Defect}

/-- Without defects the computation renders the text, with defects there is none. -/
def Compiles (defects : List Resolution.Defect) (print : α → β)
    (result : Except GenerationError α) (text : Option β) : Prop :=
  (defects = [] → Renders print result text) ∧ (defects ≠ [] → text = none)

theorem Renders.compiles {result : Except GenerationError α}
    (renders : Renders print result text) : Compiles [] print result text :=
  ⟨fun _ => renders, fun defective => absurd rfl defective⟩

namespace Compiles

/-- What has a defect for certain and no text compiles. -/
theorem defective {result : Except GenerationError α} (defect : Resolution.Defect) :
    Compiles [defect] print result none :=
  ⟨fun none => absurd none (List.cons_ne_nil _ _), fun _ => rfl⟩

/-- One part after the other: their defects add up. -/
theorem bind (first : Compiles defects print (answer context descent) text)
    (rest : ∀ a, Compiles others print' (answer context (next a)) (more (print a))) :
    Compiles (defects ++ others) print' (answer context (descent >>= next)) (text >>= more) := by
  refine ⟨fun none => ?_, fun some => ?_⟩
  · obtain ⟨noneHere, noneThere⟩ := List.append_eq_nil_iff.mp none
    exact (first.1 noneHere).bind fun a => (rest a).1 noneThere
  · by_cases here : defects = []
    · -- the defects lie ahead: the text is lost there, if it is not lost before
      have there : others ≠ [] := by
        rintro rfl
        exact some (by rw [here]; rfl)
      rw [← first.1 here]
      cases answer context descent with
      | error e => rfl
      | ok a => exact (rest a).2 there
    · rw [first.2 here]
      rfl

theorem andThen (first : Compiles defects print (answer context descent) text)
    (rest : ∀ a, Renders print' (answer context (next a)) (more (print a))) :
    Compiles defects print' (answer context (descent >>= next)) (text >>= more) := by
  rw [← List.append_nil defects]
  exact first.bind fun a => (rest a).compiles

theorem look {tell : Context → Except GenerationError α} {a : α} (told : tell context = .ok a)
    {text : Option δ} (rest : Compiles defects print' (answer context (next a)) text) :
    Compiles defects print' (answer context (Visiting.look tell >>= next)) text := by
  rw [Generation.answer_bind, Generation.answer_look, told]
  exact rest

theorem visit {node : Node}
    (inside : Compiles defects print (answer (context.enter node) descent) text) :
    Compiles defects print (answer context (Visiting.visit node descent)) text :=
  inside

/-- The same result in another form. -/
theorem reprint {result : Except GenerationError α} {form : β → δ} {printed : α → δ}
    (compiles : Compiles defects print result text) (same : ∀ a, printed a = form (print a)) :
    Compiles defects printed result (text >>= fun text => some (form text)) := by
  refine ⟨fun none => ?_, fun defective => ?_⟩
  · rw [← compiles.1 none]
    cases result with
    | error e => rfl
    | ok a => exact congrArg some (same a)
  · rw [compiles.2 defective]
    rfl

end Compiles

theorem Renders.andThen (first : Renders print (answer context descent) text)
    (rest : ∀ a, Compiles others print' (answer context (next a)) (more (print a))) :
    Compiles others print' (answer context (descent >>= next)) (text >>= more) :=
  first.compiles.bind rest

end Compiles

/-! ### Names and parameters -/

theorem compiles_nameOf (context : Context) (position : Position) (kind : Kind)
    (identifier : Option Ident) :
    Compiles (Resolution.identDefects position kind identifier) id
      (answer context (Generation.nameOf identifier)) (ident identifier) := by
  refine ⟨fun _ => renders_nameOf context identifier, fun defective => ?_⟩
  cases identifier with
  | none => rfl
  | some i =>
    have empty : i.name = "" :=
      Decidable.byContradiction fun named => defective (if_neg named)
    rw [ident, nameOf_eq_none empty]
    rfl

theorem compiles_namesOf (context : Context) (position : Position) (kind : Kind)
    (list : List (Option Ident)) :
    Compiles (list.flatMap (Resolution.identDefects position kind)) id
      (answer context (Generation.namesOf list)) (idents list) := by
  induction list with
  | nil => exact (Renders.pure rfl).compiles
  | cons first rest ih =>
    exact (compiles_nameOf context position kind first).bind fun _ => ih.andThen fun _ => .pure rfl

theorem compiles_paramGroup (context : Context) (group : Option ParamGroup) :
    Compiles (Resolution.paramDefects [group]) Script.commas
      (answer context (Generation.paramGroup group)) (paramGroup group) := by
  rw [Resolution.paramDefects, List.flatMap_singleton]
  cases group with
  | none => exact .defective _
  | some group =>
    exact .visit ((compiles_namesOf _ group.position .valueParameter group.names).reprint
      commas_eq)

theorem compiles_paramGroups (context : Context) (list : List (Option ParamGroup)) :
    Compiles (Resolution.paramDefects list) (List.map Script.commas)
      (answer context (Generation.paramGroups list)) (paramGroups list) := by
  induction list with
  | nil => exact (Renders.pure rfl).compiles
  | cons group rest ih =>
    have split : Resolution.paramDefects (group :: rest) =
        Resolution.paramDefects [group] ++ Resolution.paramDefects rest := by
      simp [Resolution.paramDefects]
    rw [split]
    exact (compiles_paramGroup context group).bind fun _ => ih.andThen fun _ => .pure rfl

/-! ### Variables and constants -/

theorem printAll_append (first second : List Script.Stmt) :
    Script.Stmt.printAll (first ++ second) =
      Script.Stmt.printAll first ++ Script.Stmt.printAll second := by
  induction first with
  | nil => rw [List.nil_append, Script.Stmt.printAll, String.empty_append]
  | cons s rest ih =>
    rw [List.cons_append, Script.Stmt.printAll, Script.Stmt.printAll, ih, String.append_assoc]

theorem printAll_singleton (s : Script.Stmt) : Script.Stmt.printAll [s] = s.print := by
  rw [Script.Stmt.printAll, Script.Stmt.printAll, String.append_empty]

theorem printAll_map_define (name : String) (others : List String) :
    Script.Stmt.printAll (others.map fun other => .define other (.name name)) =
      String.join (others.map fun other => "var " ++ other ++ "=" ++ name ++ ";") := by
  induction others with
  | nil => rfl
  | cons other rest ih =>
    rw [List.map_cons, Script.Stmt.printAll, ih, List.map_cons, String.join_cons]
    rfl

section Trees

variable {context : Context} {levels : List Level}

theorem compiles_varDecl (agrees : Agrees context levels) (d : Option VarDecl) :
    Compiles (Resolution.varDefects d) Script.Stmt.printAll (answer context (Generation.varDecl d))
      (varDecl levels d) := by
  obtain - | ⟨position, names, type, value⟩ := d
  · exact .defective _
  · have inside := agrees.enter (.decl (.var ⟨position, names, type, value⟩)) rfl
    rw [Resolution.varDefects]
    cases names with
    -- no names are no defect, but generation fails without any
    | nil => exact (Renders.error _).compiles
    | cons first others =>
      cases value with
      | none =>
        refine (compiles_namesOf _ position .variableDeclaration (first :: others)).andThen
          fun names => .pure ?_
        rw [printAll_singleton, Script.Stmt.print, commas_eq]
        rfl
      | some value =>
        refine (compiles_nameOf _ position .variableDeclaration first).bind fun name => ?_
        refine (renders_expr inside value).andThen fun value => ?_
        refine (compiles_namesOf _ position .variableDeclaration others).andThen
          fun others => .pure ?_
        rw [Script.Stmt.printAll, printAll_map_define]
        rfl

theorem compiles_constDecl (agrees : Agrees context levels) (d : Option ConstDecl) :
    Compiles (Resolution.constDefects d) Script.Stmt.printAll
      (answer context (Generation.constDecl d)) (constDecl levels d) := by
  obtain - | ⟨position, name, type, value⟩ := d
  · exact .defective _
  · have inside := agrees.enter (.decl (.const ⟨position, name, type, value⟩)) rfl
    cases value with
    | none =>
      -- generation misses the value before it looks at the name
      have lost : constDecl levels (some ⟨position, name, type, none⟩) = none := by
        cases named : ident name <;> simp [constDecl, named, expr?]
      rw [lost]
      exact ⟨fun _ => .error _, fun _ => rfl⟩
    | some value =>
      refine (compiles_nameOf _ position .constantDeclaration name).andThen fun name => ?_
      rw [expr?]
      refine (renders_expr inside value).bind fun value => .pure ?_
      rw [printAll_singleton]
      rfl

theorem compiles_varDecls (agrees : Agrees context levels) (list : List (Option VarDecl)) :
    Compiles (list.flatMap Resolution.varDefects) Script.Stmt.printAll
      (answer context (Generation.varDecls list)) (concat (varDecl levels) list) := by
  induction list with
  | nil => exact (Renders.pure rfl).compiles
  | cons d rest ih =>
    exact (compiles_varDecl agrees d).bind fun first =>
      ih.andThen fun others => .pure (printAll_append first others)

theorem compiles_constDecls (agrees : Agrees context levels) (list : List (Option ConstDecl)) :
    Compiles (list.flatMap Resolution.constDefects) Script.Stmt.printAll
      (answer context (Generation.constDecls list)) (concat (constDecl levels) list) := by
  induction list with
  | nil => exact (Renders.pure rfl).compiles
  | cons d rest ih =>
    exact (compiles_constDecl agrees d).bind fun first =>
      ih.andThen fun others => .pure (printAll_append first others)

end Trees

/-! ### Routines -/

/-- A forward header only has to have a name. -/
theorem compiles_header (context : Context) (h : Header) (levels : List Level) :
    Compiles (Resolution.identDefects h.position h.nodeKind h.name) Script.Stmt.printAll
      (answer context (pure [])) (decl levels (.header h)) := by
  rw [decl]
  cases named : h.name with
  | none => exact .defective _
  | some i =>
    rw [Resolution.identDefects]
    split
    · next empty =>
      rw [nameOf_eq_none empty]
      exact .defective _
    · next named =>
      rw [nameOf_eq_some named]
      exact (Renders.pure rfl).compiles

/-- Inside a routine the scope attached to it is the innermost one. -/
theorem Mirrors.agrees {tables : List NameTable} {levels : List Level}
    (mirrors : Mirrors tables levels) (context : Context) (params : List (Option ParamGroup))
    (block : Option Block) (node : Node)
    (attached : node.scope =
      some ⟨NameTable.ofBindings (Resolution.ofRoutine params block), tables⟩) :
    Agrees (context.enter node) (levelOf params (Resolution.declsOf block) :: levels) := by
  refine ⟨⟨NameTable.ofBindings (Resolution.ofRoutine params block), tables⟩, ?_,
    mirrors.cons params (Resolution.declsOf block)⟩
  rw [Context.scope?, Context.enter, List.findSome?_cons, attached]

mutual

/-- A declaration with scopes attached compiles to its text. -/
theorem compiles_decl {context : Context} {tables : List NameTable} {levels : List Level}
    (agrees : Agrees context levels) (mirrors : Mirrors tables levels) :
    ∀ d : Decl, Compiles (Resolution.declDefects d) Script.Stmt.printAll
      (answer context (Generation.decl (Resolution.attachDecl tables d))) (decl levels d)
  | .var d => by
    rw [Resolution.attachDecl, Resolution.declDefects, Generation.decl, decl]
    exact compiles_varDecl agrees (some d)
  | .vars position list => by
    rw [Resolution.attachDecl, Resolution.declDefects, Generation.decl, decl]
    exact .visit (compiles_varDecls (agrees.enter _ rfl) list)
  | .const d => by
    rw [Resolution.attachDecl, Resolution.declDefects, Generation.decl, decl]
    exact compiles_constDecl agrees (some d)
  | .consts position list => by
    rw [Resolution.attachDecl, Resolution.declDefects, Generation.decl, decl]
    exact .visit (compiles_constDecls (agrees.enter _ rfl) list)
  | .header h => by
    rw [Resolution.attachDecl, Resolution.declDefects, Generation.decl]
    exact compiles_header context h levels
  | .routine r => by
    rw [Resolution.attachDecl, Resolution.declDefects, Generation.decl, decl]
    rw [← bind_pure (routine levels r)]
    exact (compiles_routine context mirrors r).andThen fun s => .pure (printAll_singleton s)

/-- A routine with scopes attached compiles to its text. Its own level is in
front of the levels around it. -/
theorem compiles_routine (context : Context) {tables : List NameTable} {levels : List Level}
    (mirrors : Mirrors tables levels) :
    ∀ r : Routine, Compiles (Resolution.routineDefects r) Script.Stmt.print
      (answer context (Generation.routine (Resolution.attachRoutine tables r))) (routine levels r)
  | ⟨position, kind, identifier, params, body, scope⟩ => by
    rw [Resolution.attachRoutine, Resolution.routineDefects, Generation.routine, routine,
      List.append_assoc]
    refine .visit ((compiles_nameOf _ position _ identifier).bind fun name => ?_)
    refine (compiles_paramGroups _ params).bind fun groups => ?_
    -- the body is translated with the routine's level in front, its table attached, and the
    -- routine is the parent of its block
    have inside := mirrors.cons params (Resolution.declsOf body)
    rw [← context.currentIs_program_routine (Resolution.attachRoutine tables
      ⟨position, kind, identifier, params, body, scope⟩)]
    refine (compiles_block? (mirrors.agrees context params body _ rfl) inside body).andThen
      fun script => .pure ?_
    rw [Script.Stmt.print, commas_eq]
    rfl

/-- A block with scopes attached compiles to its text. The flag of the translator is
set where the innermost node is a program. -/
theorem compiles_block? {context : Context} {tables : List NameTable} {levels : List Level}
    (agrees : Agrees context levels) (mirrors : Mirrors tables levels) :
    ∀ b : Option Block, Compiles (Resolution.blockDefects b) Script.Stmt.print
      (answer context (Generation.block? (Resolution.attachBlock? tables b)))
      (block? levels (context.currentIs .program) b)
  | none => by
    rw [Resolution.attachBlock?, Resolution.blockDefects, Generation.block?, block?]
    exact (Renders.error _).compiles
  | some ⟨position, list, body⟩ => by
    rw [Resolution.attachBlock?, Resolution.attachBlock, Resolution.blockDefects,
      Generation.block?, Generation.block, block?, block,
      ← context.parentIs_enter (.block ⟨position, Resolution.attachDecls tables list, body⟩)]
    refine .visit (.look rfl ((compiles_decls (agrees.enter _ rfl) mirrors list).andThen
      fun declared => ?_))
    cases body with
    | none => exact .pure (print_block _ _)
    | some body =>
      -- the block is the parent of its compound statement
      refine (renders_compound (agrees.enter _ rfl) body).bind fun done => .pure ?_
      rw [print_block, printAll_append, printAll_singleton]

theorem compiles_decls {context : Context} {tables : List NameTable} {levels : List Level}
    (agrees : Agrees context levels) (mirrors : Mirrors tables levels) :
    ∀ list : List (Option Decl), Compiles (Resolution.defectsOf list) Script.Stmt.printAll
      (answer context (Generation.decls (Resolution.attachDecls tables list))) (decls levels list)
  | [] => by
    rw [Resolution.attachDecls, Resolution.defectsOf, Generation.decls, decls]
    exact (Renders.pure rfl).compiles
  | none :: rest => by
    -- a missing declaration is a defect
    rw [Resolution.defectsOf, decls, decl?]
    exact ⟨fun none => absurd none (List.cons_ne_nil _ _), fun _ => rfl⟩
  | some d :: rest => by
    rw [Resolution.attachDecls, Resolution.attachDecl?, Resolution.defectsOf, Generation.decls,
      Generation.decl?, decls, decl?]
    exact (compiles_decl agrees mirrors d).bind fun first =>
      (compiles_decls agrees mirrors rest).andThen fun others =>
        .pure (printAll_append first others)

end

/-! ### Files -/

/-- At the level of a file only the scope of the file is attached. -/
theorem agrees_root {node : Node} {decls : List (Option Decl)}
    (attached : node.scope = some ⟨NameTable.ofBindings (Resolution.ofDecls decls), []⟩) :
    Agrees (.root node) [levelOf [] decls] := by
  refine ⟨⟨NameTable.ofBindings (Resolution.ofDecls decls), []⟩, ?_, Mirrors.nil.cons [] decls⟩
  rw [Context.scope?, Context.root, List.findSome?_cons, attached]

theorem compiles_unitPart {context : Context} {tables : List NameTable} {levels : List Level}
    (agrees : Agrees context levels) (mirrors : Mirrors tables levels) {node : UnitPart → Node}
    (plain : ∀ part, (node part).scope = none) (part : Option UnitPart) :
    Compiles (Resolution.defectsOf ((part.map UnitPart.decls).getD [])) Script.Stmt.printAll
      (answer context (Generation.unitPart node (part.map (Resolution.attachPart tables))))
      (decls levels ((part.map UnitPart.decls).getD [])) := by
  cases part with
  | none => exact compiles_decls agrees mirrors []
  | some part => exact .visit (compiles_decls (agrees.enter _ (plain _)) mirrors part.decls)

/-- A file with scopes attached compiles to its text. -/
theorem compiles_file (file : File) :
    Compiles file.defects Script.Stmt.printAll (Generation.script file.resolve)
      (translate file) := by
  rw [file.defects_eq, file.resolve_eq]
  cases file with
  | program f =>
    have mirrors := Mirrors.nil.cons [] f.decls
    have defects : Resolution.defectsOf (File.program f).decls = _ :=
      (Resolution.blockDefects_eq f.block).symm
    rw [defects, Generation.script_eq, translate, Resolution.attachFile, Generation.file,
      ← bind_pure (block? _ _ _)]
    exact (compiles_block? (agrees_root rfl) mirrors f.block).andThen fun script =>
      .pure (printAll_singleton script)
  | unit f =>
    have mirrors := Mirrors.nil.cons [] f.decls
    have defects : Resolution.defectsOf (File.unit f).decls = _ :=
      Resolution.defectsOf_append _ _
    rw [defects, Generation.script_eq, translate, Resolution.attachFile, Generation.file]
    refine (compiles_unitPart (agrees_root rfl) mirrors (fun _ => rfl) f.interfacePart).bind
      fun first => ?_
    exact (compiles_unitPart (agrees_root rfl) mirrors (fun _ => rfl)
      f.implementationPart).andThen fun second => .pure (printAll_append first second)

/-- What compiles has the text of the lexical translator. -/
theorem translate_of_compile {file : File} {text : String} (compiled : file.compile = .ok text) :
    translate file = some text := by
  rw [File.compile] at compiled
  split at compiled
  · next none =>
    rw [← (compiles_file file).1 (List.isEmpty_iff.mp none)]
    rw [File.generate] at compiled
    cases generated : Generation.script file.resolve with
    | error e =>
      rw [generated] at compiled
      cases compiled
    | ok script =>
      rw [generated] at compiled
      exact congrArg Except.toOption compiled
  · cases compiled

end Lexical

/-- Compiling gives a text exactly if the lexical translator does, and the same one. -/
theorem File.compile_eq_ok_iff_translate (file : File) (text : String) :
    file.compile = .ok text ↔ Lexical.translate file = some text := by
  obtain ⟨sound, defective⟩ := Lexical.compiles_file file
  rw [File.compile]
  split
  · next none =>
    -- without defects, compiling is generating with scopes attached
    have renders := sound (List.isEmpty_iff.mp none)
    rw [← renders, File.generate]
    cases Generation.script file.resolve with
    | error e => exact ⟨fun failed => (nomatch failed), fun failed => (nomatch failed)⟩
    | ok script =>
      exact ⟨fun same => congrArg Except.toOption same,
        fun same => congrArg Except.ok (Option.some_inj.mp same)⟩
  · next some =>
    rw [defective fun none => some (List.isEmpty_iff.mpr none)]
    exact ⟨fun failed => (nomatch failed), fun failed => (nomatch failed)⟩

end PascalCompiler
