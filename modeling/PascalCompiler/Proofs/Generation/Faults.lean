import PascalCompiler.Proofs.Document.Soundness
import PascalCompiler.Proofs.Generation.Outcome

/-!
# What keeps a decoded file from being compiled

A well-formed tree can still hold what scripts cannot express or what has no
name. These are the only reasons for which compiling it fails: the defects that
resolution finds are declared identifiers without a name, and every error of the
generator has its cause in a fault of some node of the tree. A decoded file is
well-formed, so nothing else can be wrong with it.

## Main results

* `Document.wellFormed_and_blames_of_decode`: why a decoded file is not compiled
-/

namespace PascalCompiler

/-- A decoded file is well-formed. Its defects are the identifiers without a name
among those it declares, and if it has none, compiling it fails for a fault of
one of its nodes only. -/
theorem Document.wellFormed_and_blames_of_decode {name : String} {text : Bytes} {file : File}
    (read : decode name text = .ok file) :
    file.node.WellFormed name ∧
      (∀ defect ∈ file.defects, ∃ node, file.node.Within node ∧ node.HasEmptyName ∧
        defect.message = node.position.label (node.kind.tag ++ " without identifier")) ∧
      ∀ error, file.compile = .error error →
        (error = .resolution file.defects ∧ file.defects ≠ []) ∨
          ∃ cause node reason, error = .generation cause ∧ cause.reason? = some reason ∧
            file.node.Within node ∧ node.Fault reason := by
  have wellFormed := wellFormed_of_decode read
  refine ⟨wellFormed, fun defect mem => ?_, fun error failed => ?_⟩
  · obtain ⟨node, within, empty, rfl⟩ := File.unnamed_of_mem_defects wellFormed defect mem
    exact ⟨node, within, empty, rfl⟩
  · rcases File.cause_of_compile failed with defective | ⟨cause, rfl, same⟩
    · exact .inl defective
    · obtain ⟨node, reason, within, fault, isReason⟩ :=
        (Generation.outcome_script file).fault name wellFormed
          (Generation.isSome_scope_resolve file) cause same
      exact .inr ⟨cause, node, reason, rfl, isReason, within, fault⟩

/-- The routine `p` of this unit has no block. -/
theorem Document.fault_of_blockless_routine :
    ∃ file, decode "u.pas" (.ofString (
        "\x7b\"type\":\"unit\",\"implementation\":\x7b\"type\":\"implementation_part\"," ++
        "\"declarations\":[\x7b\"type\":\"procedure_declaration\",\"identifier\":" ++
        "\x7b\"type\":\"identifier\",\"value\":\"p\"\x7d\x7d]\x7d\x7d")) = .ok file ∧
      file.node.WellFormed "u.pas" ∧ file.defects = [] ∧
      ∃ cause node reason, file.compile = .error (.generation cause) ∧
        cause.reason? = some reason ∧ file.node.Within node ∧ node.Fault reason := by
  have refused : ∃ file ∈ (decode "u.pas" (.ofString (
      "\x7b\"type\":\"unit\",\"implementation\":\x7b\"type\":\"implementation_part\"," ++
      "\"declarations\":[\x7b\"type\":\"procedure_declaration\",\"identifier\":" ++
      "\x7b\"type\":\"identifier\",\"value\":\"p\"\x7d\x7d]\x7d\x7d"))).toOption,
      file.defects = [] ∧ file.compile.toOption.isNone := by
    decide +kernel
  obtain ⟨file, mem, noDefect, failed⟩ := refused
  have read := eq_ok_of_mem_toOption mem
  refine ⟨file, read, (wellFormed_and_blames_of_decode read).1, noDefect, ?_⟩
  cases result : file.compile with
  | ok text => simp [result, Except.toOption] at failed
  | error error =>
    obtain ⟨-, defective⟩ | ⟨cause, node, reason, rfl, blamed⟩ :=
      (wellFormed_and_blames_of_decode read).2.2 error result
    · exact absurd noDefect defective
    · exact ⟨cause, node, reason, rfl, blamed⟩

end PascalCompiler
