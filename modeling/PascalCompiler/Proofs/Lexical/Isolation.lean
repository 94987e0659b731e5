import PascalCompiler.Proofs.Generation.Outcome
import PascalCompiler.Proofs.Lexical.Refinement
import PascalCompiler.Proofs.Resolution.Detached
import PascalCompiler.Proofs.Tree.Gap

/-!
# Routines are isolated

What is inside a routine does not change how anything outside of it is translated. The
text of a file with a routine in a gap is the text around the gap with that of the
routine inside, and the text around is the same for all routines of the same name and kind.

## Main definitions

* `Lexical.Framed`: texts that differ in one place
* `DeclSite.levels`, `DeclSite.tables`: the names visible at a site
* `DeclSite.attach`: a site in the resolved file
* `Gap.Emits`: the text emitted for the routine in a gap

## Main results

* `DeclSite.resolve_fill`: resolution of a file with declarations at a site
* `DeclSite.framed_translate`: the text around a site
* `Gap.compile_isolates`: what is emitted outside of a routine does not depend on the inside
-/

namespace PascalCompiler

open Resolution

/-! ### Sites in a resolved file -/

namespace DeclSite

/-- The tables visible to the declarations at a site. -/
def tables : DeclSite → List (Option Decl) → List NameTable
  | .routine site before after outer block, decls =>
    .ofBindings (ofParams outer.params ++ ofDecls decls) ::
      site.tables (around before after outer block decls)
  | .program file block, decls => [(fill (.program file block) decls).nameTable]
  | .interfacePart file part, decls => [(fill (.interfacePart file part) decls).nameTable]
  | .implementationPart file part, decls =>
    [(fill (.implementationPart file part) decls).nameTable]

/-- The site of declarations after resolution. -/
def attach : DeclSite → List (Option Decl) → DeclSite
  | .routine site before after outer block, decls =>
    let visible := site.tables (around before after outer block decls)
    let names := NameTable.ofBindings (ofParams outer.params ++ ofDecls decls)
    .routine (site.attach (around before after outer block decls)) (attachDecls visible before)
      (attachDecls visible after) { outer with scope := some ⟨names, visible⟩ } block
  | .program file block, decls =>
    let names := (fill (.program file block) decls).nameTable
    .program { file with scope := some ⟨names, []⟩ } block
  | .interfacePart file part, decls =>
    let names := (fill (.interfacePart file part) decls).nameTable
    .interfacePart { file with
      implementationPart := file.implementationPart.map (attachPart [names])
      scope := some ⟨names, []⟩ } part
  | .implementationPart file part, decls =>
    let names := (fill (.implementationPart file part) decls).nameTable
    .implementationPart { file with
      interfacePart := file.interfacePart.map (attachPart [names])
      scope := some ⟨names, []⟩ } part

theorem attachDecls_around (visible : List NameTable) (before after : List (Option Decl))
    (outer : Routine) (block : Block) (decls : List (Option Decl)) :
    attachDecls visible (around before after outer block decls) =
      around (attachDecls visible before) (attachDecls visible after)
        { outer with
          scope := some ⟨.ofBindings (ofParams outer.params ++ ofDecls decls), visible⟩ } block
        (attachDecls (.ofBindings (ofParams outer.params ++ ofDecls decls) :: visible) decls) := by
  rw [around, attachDecls_eq_map, List.map_append, List.map_cons, Option.map_some, attachDecl,
    Routine.withBlock, attachRoutine, ← attachDecls_eq_map, ← attachDecls_eq_map]
  rfl

/-- Resolution attaches scopes to the declarations at a site and to what is around. -/
theorem resolve_fill (site : DeclSite) (decls : List (Option Decl)) :
    (site.fill decls).resolve =
      (site.attach decls).fill (attachDecls (site.tables decls) decls) := by
  induction site generalizing decls with
  | program | interfacePart | implementationPart =>
    rw [File.resolve_eq]
    rfl
  | routine site before after outer block ih =>
    rw [fill, attach, fill, tables]
    exact (ih (around before after outer block decls)).trans
      (congrArg _ (attachDecls_around _ before after outer block decls))

/-! ### Levels of a site -/

/-- The levels visible to the declarations at a site. -/
def levels : DeclSite → List (Option Decl) → List Lexical.Level
  | .routine site before after outer block, decls =>
    Lexical.levelOf outer.params decls :: site.levels (around before after outer block decls)
  | .program file block, decls => [Lexical.levelOf [] (fill (.program file block) decls).decls]
  | .interfacePart file part, decls =>
    [Lexical.levelOf [] (fill (.interfacePart file part) decls).decls]
  | .implementationPart file part, decls =>
    [Lexical.levelOf [] (fill (.implementationPart file part) decls).decls]

theorem mirrors (site : DeclSite) (decls : List (Option Decl)) :
    Lexical.Mirrors (site.tables decls) (site.levels decls) := by
  induction site generalizing decls with
  | program | interfacePart | implementationPart => exact Lexical.Mirrors.nil.cons [] _
  | routine site before after outer block ih => exact (ih _).cons outer.params decls

/-- The names of a routine's own level are not declared around it. -/
theorem ofDecls_around (before after : List (Option Decl)) (outer : Routine) (block : Block)
    (decls others : List (Option Decl)) :
    ofDecls (around before after outer block decls) =
      ofDecls (around before after outer block others) := by
  simp [ofDecls, around, ofDecl, Routine.withBlock]

theorem levelOf_congr (params : List (Option ParamGroup)) {decls others : List (Option Decl)}
    (same : ofDecls decls = ofDecls others) :
    Lexical.levelOf params decls = Lexical.levelOf params others := by
  rw [Lexical.levelOf_eq, Lexical.levelOf_eq, same]

/-- The levels depend on the names declared at a site and on nothing else of the
declarations there. -/
theorem levels_congr (site : DeclSite) {decls others : List (Option Decl)}
    (same : ofDecls decls = ofDecls others) : site.levels decls = site.levels others := by
  induction site generalizing decls others with
  | program file block => exact congrArg (fun level => [level]) (levelOf_congr [] same)
  | interfacePart file part | implementationPart file part =>
    refine congrArg (fun level => [level]) (levelOf_congr [] ?_)
    -- the declarations of the other part stand behind or in front of these
    simp only [fill, File.decls, UnitFile.decls, UnitPart.withDecls, Option.map_some,
      Option.getD_some, ofDecls, List.flatMap_append] at same ⊢
    rw [same]
  | routine site before after outer block ih =>
    rw [levels, levels, levelOf_congr outer.params same, ih (ofDecls_around ..)]

end DeclSite

/-! ### Texts in a frame -/

namespace Lexical

/-- Wherever the condition holds, the first text is the second with the same texts in front of
it and behind. If the texts around are missing, there is no first one. -/
def Framed {α : Type} (p : α → Prop) (whole part : α → Option String) : Prop :=
  ∃ frame : Option (String × String), ∀ a, p a →
    whole a = frame.bind fun (first, last) => (part a).map fun text => first ++ text ++ last

theorem Framed.trans {α : Type} {p : α → Prop} {whole part inner : α → Option String}
    (outside : Framed p whole part) (inside : Framed p part inner) : Framed p whole inner := by
  obtain ⟨outer, isWhole⟩ := outside
  obtain ⟨frame, isPart⟩ := inside
  refine ⟨outer.bind fun (first, last) => frame.map fun (first', last') =>
    (first ++ first', last' ++ last), fun a holds => ?_⟩
  rw [isWhole a holds, isPart a holds]
  cases outer <;> cases frame <;> cases inner a <;> simp [String.append_assoc]

theorem Framed.congr {α : Type} {p : α → Prop} {whole other part : α → Option String}
    (framed : Framed p whole part) (same : ∀ a, p a → other a = whole a) :
    Framed p other part := by
  obtain ⟨frame, isWhole⟩ := framed
  exact ⟨frame, fun a holds => (same a holds).trans (isWhole a holds)⟩

theorem Framed.comp {α β : Type} {p : α → Prop} {q : β → Prop} {whole part : α → Option String}
    (framed : Framed p whole part) (f : β → α) (holds : ∀ b, q b → p (f b)) :
    Framed q (fun b => whole (f b)) (fun b => part (f b)) := by
  obtain ⟨frame, same⟩ := framed
  exact ⟨frame, fun b isQ => same (f b) (holds b isQ)⟩

theorem decls_append (levels : List Level) (first second : List (Option Decl)) :
    decls levels (first ++ second) = (decls levels first).bind fun text =>
      (decls levels second).map fun others => text ++ others := by
  induction first with
  | nil => cases same : decls levels second <;> simp [decls, same]
  | cons d rest ih =>
    rw [List.cons_append, decls, ih, decls]
    cases decl? levels d <;> cases decls levels rest <;> cases decls levels second <;>
      simp [String.append_assoc]

/-- The text of declarations with a routine among them. -/
theorem framed_decls (levels : List Level) (before after : List (Option Decl)) :
    Framed (fun _ => True) (fun r => decls levels (before ++ some (.routine r) :: after))
      (routine levels) := by
  refine ⟨(decls levels before).bind fun first => (decls levels after).map fun last =>
    (first, last), fun r _ => ?_⟩
  change decls levels (before ++ some (.routine r) :: after) = _
  rw [decls_append, decls, decl?, decl]
  cases decls levels before <;> cases decls levels after <;> cases routine levels r <;>
    simp [String.append_assoc]

/-- The text of a block is that of its declarations, with the statements behind. -/
theorem framed_block (levels : List Level) (ofProgram : Bool) (b : Block) :
    Framed (fun _ => True) (fun list => block levels ofProgram (b.withDecls list))
      (decls levels) := by
  obtain ⟨position, -, - | body⟩ := b
  · refine ⟨some (if ofProgram then ("", "") else ("\x7b", "\x7d")), fun list _ => ?_⟩
    change block levels ofProgram ⟨position, list, none⟩ = _
    rw [block]
    cases decls levels list <;> cases ofProgram <;> simp [inBraces]
  · refine ⟨(compound levels true body).map fun text =>
      if ofProgram then ("", text) else ("\x7b", text ++ "\x7d"), fun list _ => ?_⟩
    change block levels ofProgram ⟨position, list, some body⟩ = _
    rw [block]
    cases decls levels list <;> cases same : compound levels true body <;> cases ofProgram <;>
      simp [inBraces, same, String.append_assoc]

/-- The text of a routine with the declarations of its block, which are at a level of their own. -/
theorem framed_routine (levels : List Level) (outer : Routine) (b : Block) (level : Level) :
    Framed (fun list => levelOf outer.params list = level)
      (fun list => routine levels (outer.withBlock (b.withDecls list)))
      (decls (level :: levels)) := by
  refine Framed.trans ?_ ((framed_block (level :: levels) false b).comp id fun _ _ => trivial)
  obtain ⟨position, kind, name, params, -, scope⟩ := outer
  refine ⟨(ident name).bind fun name => (paramGroups params).map fun groups =>
    ("function " ++ name ++ "(" ++ commas groups ++ ")", ""), fun list sameLevel => ?_⟩
  change routine levels ⟨position, kind, name, params, some (b.withDecls list), scope⟩ = _
  have isLevel : levelOf params (((some (b.withDecls list)).map Block.decls).getD []) = level :=
    sameLevel
  simp only [routine, isLevel, block?]
  cases ident name <;> cases paramGroups params <;>
    cases text : block (level :: levels) false (b.withDecls list) <;> simp [text]

end Lexical

/-! ### Texts of a file with a gap -/

namespace DeclSite

open Lexical

/-- The text of the declarations at a site in the interface part comes first. -/
theorem translate_interfacePart (file : UnitFile) (part : UnitPart) (list : List (Option Decl)) :
    translate (fill (.interfacePart file part) list) =
      (Lexical.decls (levels (.interfacePart file part) list) list).bind fun first =>
        (Lexical.decls (levels (.interfacePart file part) list)
          ((file.implementationPart.map UnitPart.decls).getD [])).bind fun last =>
            some (first ++ last) :=
  rfl

theorem translate_implementationPart (file : UnitFile) (part : UnitPart)
    (list : List (Option Decl)) :
    translate (fill (.implementationPart file part) list) =
      (Lexical.decls (levels (.implementationPart file part) list)
        ((file.interfacePart.map UnitPart.decls).getD [])).bind fun first =>
          (Lexical.decls (levels (.implementationPart file part) list) list).bind fun last =>
            some (first ++ last) :=
  rfl

/-- The text around a site depends on the names declared there and on nothing else of the
declarations. -/
theorem framed_translate (site : DeclSite) (list : List (Option Decl)) :
    Framed (fun others => ofDecls others = ofDecls list)
      (fun others => translate (site.fill others)) (Lexical.decls (site.levels list)) := by
  induction site generalizing list with
  | program file b =>
    refine ((framed_block _ true b).comp id fun _ _ => trivial).congr fun others same => ?_
    rw [← levels_congr (.program file b) same]
    rfl
  | interfacePart file part =>
    refine ⟨(Lexical.decls (levels (.interfacePart file part) list)
      ((file.implementationPart.map UnitPart.decls).getD [])).map fun last => ("", last),
      fun others same => ?_⟩
    change translate (fill (.interfacePart file part) others) = _
    rw [translate_interfacePart, levels_congr _ same]
    cases Lexical.decls _ others <;> cases Lexical.decls _ (Option.getD _ _) <;> simp
  | implementationPart file part =>
    refine ⟨(Lexical.decls (levels (.implementationPart file part) list)
      ((file.interfacePart.map UnitPart.decls).getD [])).map fun first => (first, ""),
      fun others same => ?_⟩
    change translate (fill (.implementationPart file part) others) = _
    rw [translate_implementationPart, levels_congr _ same]
    cases Lexical.decls _ others <;> cases Lexical.decls _ (Option.getD _ _) <;> simp
  | routine site before after outer b ih =>
    -- the text of the file around the routine, then that of the routine around its block
    refine .trans ((ih (around before after outer b list)).comp (around before after outer b)
      fun others _ => ofDecls_around ..) ?_
    refine .trans ((framed_decls _ before after).comp
      (fun others => outer.withBlock (b.withDecls others)) fun _ _ => trivial) ?_
    exact (framed_routine _ outer b _).comp id fun others same => levelOf_congr outer.params same

end DeclSite

namespace Gap

open Lexical

/-- The routines of a name and kind declare the same around them. -/
theorem ofDecls_decls (gap : Gap) {r other : Routine} (sameName : other.name = r.name)
    (sameKind : other.kind = r.kind) : ofDecls (gap.decls other) = ofDecls (gap.decls r) := by
  simp [ofDecls, decls, ofDecl, sameName, sameKind]

/-- The text around a gap is the same for all routines of a name and kind. -/
theorem framed_translate (gap : Gap) (r : Routine) :
    Framed (fun other => other.name = r.name ∧ other.kind = r.kind)
      (fun other => translate (gap.fill other))
      (routine (gap.site.levels (gap.decls r))) :=
  .trans ((gap.site.framed_translate (gap.decls r)).comp gap.decls
      fun _ same => gap.ofDecls_decls same.1 same.2)
    ((framed_decls _ gap.before gap.after).comp id fun _ _ => trivial)

/-- The gap in the resolved file. -/
def attach (gap : Gap) (r : Routine) : Gap :=
  let visible := gap.site.tables (gap.decls r)
  ⟨gap.site.attach (gap.decls r), attachDecls visible gap.before, attachDecls visible gap.after⟩

/-- The routine in the gap of the resolved file. -/
def attached (gap : Gap) (r : Routine) : Routine :=
  attachRoutine (gap.site.tables (gap.decls r)) r

/-- The text is emitted for the routine in a gap when the file is compiled: the routine with
its scopes attached stands in the resolved file, and its text is the same in every context. -/
structure Emits (gap : Gap) (r : Routine) (text : String) : Prop where
  resolved : (gap.fill r).resolve = (gap.attach r).fill (gap.attached r)
  emitted : ∀ context,
    (Generation.answer context (Generation.routine (gap.attached r))).map Script.Stmt.print =
      .ok text

theorem resolve_fill (gap : Gap) (r : Routine) :
    (gap.fill r).resolve = (gap.attach r).fill (gap.attached r) := by
  rw [fill, DeclSite.resolve_fill, decls, attachDecls_eq_map, List.map_append, List.map_cons,
    Option.map_some, attachDecl, ← attachDecls_eq_map, ← attachDecls_eq_map]
  rfl

/-- The lexical text of a routine is what is emitted for it. -/
theorem emits_of_routine (gap : Gap) {r : Routine} {text : String}
    (isText : routine (gap.site.levels (gap.decls r)) r = some text) : gap.Emits r text := by
  refine ⟨gap.resolve_fill r, fun context => ?_⟩
  obtain ⟨sound, defective⟩ := compiles_routine context (gap.site.mirrors (gap.decls r)) r
  have none : routineDefects r = [] := by
    by_cases none : routineDefects r = []
    · exact none
    · rw [defective none] at isText
      cases isText
  have renders := sound none
  rw [isText, Renders] at renders
  rw [attached]
  cases generated : Generation.answer context
      (Generation.routine (attachRoutine (gap.site.tables (gap.decls r)) r)) with
  | error e =>
    rw [generated] at renders
    cases renders
  | ok s =>
    rw [generated] at renders
    exact congrArg Except.ok (Option.some_inj.mp renders)

/-- What is emitted outside of a routine does not depend on the parameters and the block
inside: with another routine of its name and kind in its gap, the file compiles to the same text
around that of the routine. -/
theorem compile_isolates {file : File} {r : Routine} {text : String}
    (within : file.node.Within (.decl (.routine r))) (compiled : file.compile = .ok text) :
    (∃ gap : Gap, gap.fill r = file) ∧
      ∀ gap : Gap, gap.fill r = file → ∃ first last own,
        text = first ++ own ++ last ∧ gap.Emits r own ∧
        ∀ (other : Routine) (changed : String), other.name = r.name → other.kind = r.kind →
          (gap.fill other).compile = .ok changed →
          ∃ ownChanged, changed = first ++ ownChanged ++ last ∧ gap.Emits other ownChanged := by
  refine ⟨Gap.exists_fill_eq within, ?_⟩
  rintro gap rfl
  obtain ⟨frame, framed⟩ := gap.framed_translate r
  have before := (framed r ⟨rfl, rfl⟩).symm.trans (Lexical.translate_of_compile compiled)
  obtain ⟨⟨first, last⟩, rfl, before⟩ := Option.bind_eq_some_iff.mp before
  obtain ⟨own, isOwn, rfl⟩ := Option.map_eq_some_iff.mp before
  refine ⟨first, last, own, rfl, gap.emits_of_routine isOwn, ?_⟩
  intro other changed sameName sameKind compiledOther
  have after := (framed other ⟨sameName, sameKind⟩).symm.trans
    (Lexical.translate_of_compile compiledOther)
  obtain ⟨ownChanged, isOwn, rfl⟩ := Option.map_eq_some_iff.mp after
  refine ⟨ownChanged, rfl, gap.emits_of_routine ?_⟩
  rw [DeclSite.levels_congr _ (gap.ofDecls_decls sameName sameKind)]
  exact isOwn

/-- A procedure with the given name and declarations. -/
def procedure (name : String) (list : List (Option Decl)) : Routine :=
  ⟨.unknown, .procedure, some ⟨.unknown, name⟩, [], some ⟨.unknown, list, none⟩, none⟩

/-- A program that declares a variable `x`, and a procedure with a gap in it. Both read the
variable. -/
def innerGap : Gap :=
  let read : Stmt := .call .unknown (some ⟨.unknown, "WriteLn"⟩)
    [some (.call .unknown (some ⟨.unknown, "x"⟩) [])]
  let block : Block := ⟨.unknown, [], some ⟨.unknown, [some read]⟩⟩
  ⟨.routine (.program {} block) [some (.var { names := [some ⟨.unknown, "x"⟩] })] []
    (procedure "Outer" []) block, [], []⟩

/-- A procedure `x` in the gap does not hide the variable from the code around. -/
theorem compile_isolates_inner :
    (innerGap.fill (procedure "Inner" [])).compile.toOption =
        some "var x;function Outer()\x7bfunction Inner()\x7b\x7dWriteLn(x);\x7dWriteLn(x);" ∧
      ∃ first last own ownChanged,
        "var x;function Outer()\x7bfunction Inner()\x7b\x7dWriteLn(x);\x7dWriteLn(x);" =
          first ++ own ++ last ∧
        "var x;function Outer()\x7bfunction Inner()\x7bfunction x()\x7b\x7d\x7dWriteLn(x);" ++
          "\x7dWriteLn(x);" = first ++ ownChanged ++ last := by
  have compiled : (innerGap.fill (procedure "Inner" [])).compile.toOption =
      some "var x;function Outer()\x7bfunction Inner()\x7b\x7dWriteLn(x);\x7dWriteLn(x);" := by
    decide +kernel
  have changed :
      (innerGap.fill (procedure "Inner" [some (.routine (procedure "x" []))])).compile.toOption =
        some ("var x;function Outer()\x7bfunction Inner()\x7bfunction x()\x7b\x7d\x7dWriteLn(x);" ++
          "\x7dWriteLn(x);") := by
    decide +kernel
  -- from the program to its block, to the outer routine and its block, and to the inner one
  have within : (innerGap.fill (procedure "Inner" [])).node.Within
      (.decl (.routine (procedure "Inner" []))) :=
    .child (.child (.child (.child .root (.tail _ (.tail _ (.head _))) (.head _))
      (.head _) (.tail _ (.head _))) (.tail _ (.tail _ (.head _))) (.head _)) (.head _) (.head _)
  obtain ⟨-, isolated⟩ := compile_isolates within (eq_ok_of_mem_toOption compiled)
  obtain ⟨first, last, own, text, -, others⟩ := isolated innerGap rfl
  obtain ⟨ownChanged, changedText, -⟩ :=
    others (procedure "Inner" [some (.routine (procedure "x" []))]) _ rfl rfl
      (eq_ok_of_mem_toOption changed)
  exact ⟨compiled, first, last, own, ownChanged, text, changedText⟩

end Gap

end PascalCompiler
