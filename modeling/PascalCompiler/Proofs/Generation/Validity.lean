import PascalCompiler.Proofs.Generation.Outcome
import PascalCompiler.Proofs.Script.Names

/-!
# Compiled files are programs

The generator writes a name for an identifier of the file and nowhere else, puts
functions only where declarations stand, and never declares nothing. So what a
file is compiled to is a program of ECMAScript 5, provided that its identifiers
are Pascal identifiers and that it has no empty groups of parameters. Nothing is
asked of the rest of the file.

## Main results

* `File.derives_of_compile`: the text of a compiled file
-/

namespace PascalCompiler

section Sample

/-- A call of the routine `eval`, with the exceptions of it caught. -/
def guardedCall : Stmt :=
  .tryExcept .unknown
    [some (.call .unknown (some ⟨.unknown, "eval"⟩) [some (.integer .unknown (-7))])] none

/-- A routine that does nothing. -/
def idleRoutine : Routine :=
  ⟨.unknown, .procedure, some ⟨.unknown, "eval"⟩, [some { names := [some ⟨.unknown, "x"⟩] }],
    some ⟨.unknown, [], some ⟨.unknown, []⟩⟩, none⟩

/-- A program that declares the routine and calls it. -/
def guardedProgram : File :=
  .program { block := some ⟨.unknown, [some (.routine idleRoutine)],
    some ⟨.unknown, [some guardedCall]⟩⟩ }

/-- The nodes of the program. -/
def guardedNodes : List Node :=
  [guardedProgram.node,
    .block ⟨.unknown, [some (.routine idleRoutine)], some ⟨.unknown, [some guardedCall]⟩⟩,
    .decl (.routine idleRoutine), .ident ⟨.unknown, "eval"⟩,
    .param { names := [some ⟨.unknown, "x"⟩] }, .ident ⟨.unknown, "x"⟩,
    .block ⟨.unknown, [], some ⟨.unknown, []⟩⟩, .stmt (.compound ⟨.unknown, []⟩),
    .stmt (.compound ⟨.unknown, [some guardedCall]⟩), .stmt guardedCall,
    .stmt (.call .unknown (some ⟨.unknown, "eval"⟩) [some (.integer .unknown (-7))]),
    .expr (.integer .unknown (-7))]

theorem mem_guardedNodes {node : Node} (within : guardedProgram.node.Within node) :
    node ∈ guardedNodes := by
  refine within.mem_of_closed List.mem_cons_self ?_
  simp [guardedNodes, guardedProgram, idleRoutine, guardedCall, File.node, Node.parts, Decl.parts,
    Stmt.parts, Expr.parts, RoutineKind.parts, Component.optional, Component.mandatory,
    Component.listOf, Component.handlers, Component.nodes, ProgramComments.named,
    List.reduceOption]

theorem isPascalIdentifier_of_mem (alphabet : Ecma.Alphabet) {ident : Ident}
    (mem : Node.ident ident ∈ guardedNodes) : IsPascalIdentifier alphabet ident.name := by
  have either : ident = ⟨.unknown, "eval"⟩ ∨ ident = ⟨.unknown, "x"⟩ := by
    simpa [guardedNodes, guardedProgram, File.node] using mem
  rcases either with rfl | rfl
  · refine ⟨'e', ['v', 'a', 'l'], rfl, .inl rfl, ?_⟩
    simp only [List.forall_mem_cons, List.not_mem_nil, false_implies, implies_true, and_true]
    exact ⟨.inl rfl, .inl rfl, .inl rfl⟩
  · exact ⟨'x', [], rfl, .inl rfl, nofun⟩

theorem names_ne_nil_of_mem {group : ParamGroup} (mem : Node.param group ∈ guardedNodes) :
    group.names ≠ [] := by
  have same : group = { names := [some ⟨.unknown, "x"⟩] } := by
    simpa [guardedNodes, guardedProgram, File.node] using mem
  simp [same]

end Sample

/-- What a file is compiled to is a program of ECMAScript 5. None of its
identifiers is reserved, different identifiers of the file become different
identifiers of the program, and `$e` is only the name of caught exceptions. -/
theorem File.derives_of_compile (alphabet : Ecma.Alphabet) {file : File} {text : String}
    (identifiers : ∀ ident : Ident, file.node.Within (.ident ident) →
      IsPascalIdentifier alphabet ident.name)
    (grouped : file.node.Grouped)
    (compiled : file.compile = .ok text) :
    ∃ tokens, (∀ others, Ecma.Tokens alphabet text.toList others ↔ others = tokens) ∧
      Ecma.Derives .program tokens ∧
      (∀ name, .identifier name ∈ tokens → name ∉ Script.reserved ∧
        (name = "$e" ∨ ∃ ident : Ident, file.node.Within (.ident ident) ∧
          name = Script.identifier ident.name)) ∧
      (∀ first second : Ident, file.node.Within (.ident first) → file.node.Within (.ident second) →
        first.name ≠ second.name →
          Script.identifier first.name ≠ Script.identifier second.name) ∧
      ∀ before after, tokens = before ++ .identifier "$e" :: after →
        [.keyword "catch", .punctuator "("] <:+ before := by
  obtain ⟨script, generated, rfl⟩ := File.script_of_compile compiled
  have valid : ∀ s ∈ script, s.ValidElement file.node.Names := fun s mem =>
    (Generation.outcome_script file).valid script generated s mem grouped
  -- the script is valid, and what it calls names are names
  have names : ∀ name, file.node.Names name → Script.IsName alphabet name := by
    rintro name ⟨ident, within, rfl⟩
    exact Script.isName_identifier (identifiers ident within)
  have scanned := Script.tokens_print valid names
  have guarded := Script.guarded_program valid
  refine ⟨_, fun others => ⟨fun other => other.unique scanned, ?_⟩, Script.derives_program valid,
    fun name mem => ?_, fun first second isFirst isSecond different same => ?_,
    fun before after same => ?_⟩
  · rintro rfl
    exact scanned
  · obtain ⟨before, after, same⟩ := List.append_of_mem mem
    rcases guarded before name after same with ⟨ident, within, rfl⟩ | ⟨rfl, -⟩
    · exact ⟨Script.identifier_not_mem_reserved _, .inr ⟨ident, within, rfl⟩⟩
    · exact ⟨by decide, .inl rfl⟩
  · exact different
      (Script.identifier_injective (identifiers first isFirst) (identifiers second isSecond) same)
  · -- no identifier of the file becomes `$e`
    rcases guarded before _ after same with ⟨ident, within, isException⟩ | ⟨-, bound⟩
    · exact absurd isException.symm (Script.identifier_ne_exception (identifiers ident within))
    · exact bound

/-- The routine `eval` has another name in the program. -/
theorem File.derives_guardedProgram :
    guardedProgram.compile =
        .ok "function eval$(x)\x7b\x7dtry \x7beval$(-7);\x7d catch ($e) \x7b\x7d" ∧
      ∃ tokens, Ecma.Tokens ⟨fun _ => false, fun _ => false⟩
          "function eval$(x)\x7b\x7dtry \x7beval$(-7);\x7d catch ($e) \x7b\x7d".toList tokens ∧
        Ecma.Derives .program tokens ∧
        ∀ name, .identifier name ∈ tokens → name ∉ Script.reserved := by
  have compiled : guardedProgram.compile =
      .ok "function eval$(x)\x7b\x7dtry \x7beval$(-7);\x7d catch ($e) \x7b\x7d" := rfl
  obtain ⟨tokens, scanned, derived, names, -⟩ := File.derives_of_compile
    ⟨fun _ => false, fun _ => false⟩
    (fun _ within => isPascalIdentifier_of_mem _ (mem_guardedNodes within))
    (fun _ within => names_ne_nil_of_mem (mem_guardedNodes within)) compiled
  exact ⟨compiled, tokens, (scanned tokens).mpr rfl, derived, fun name mem => (names name mem).1⟩

end PascalCompiler
