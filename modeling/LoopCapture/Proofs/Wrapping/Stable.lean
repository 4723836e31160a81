import LoopCapture.Proofs.Wrapping.Modes

/-!
# Texts that compilation leaves alone

A text is stable if compiling it gives it back without a diagnostic and without a wrapped loop. The
stable texts are the programs without redeclarations and without captures. An output is stable
unless wrapping has put a function between a variable of a loop and its uses.
-/

set_option autoImplicit false

namespace LoopCapture.Compilation

open Outline

theorem hasErrors_of_conflicts {program : Program}
    (conflicting : (Resolution.ofOutline (.ofProgram program)).conflicts ≠ [])
    (file : Option String) :
    ((Resolution.ofOutline (.ofProgram program)).conflicts.foldl
      (fun report ident => report.add (redeclarationDiagnostic ident))
      (.empty file : Report)).hasErrors = true := by
  rw [← List.foldl_map, Report.Errors.hasErrors_iff, Ne, diagnostics_foldl_eq_nil_iff,
    List.map_eq_nil_iff]
  · exact conflicting
  · refine Report.Errors.foldl (by simp [Report.Errors, Report.empty]) ?_
    intro d member
    obtain ⟨ident, -, rfl⟩ := List.mem_map.mp member
    rfl

theorem output_eq_none_of_conflicts {options : Options} {file : Option String}
    {source : List Char} {program : Program}
    (conflicting : (Resolution.ofOutline (.ofProgram program)).conflicts ≠ []) :
    (ofProgram options file source program).output = none := by
  have told := hasErrors_of_conflicts conflicting file
  have start : (Wrapping.ofOutline source (.ofProgram program)).resolution =
    .ofOutline (.ofProgram program) := rfl
  simp only [ofProgram, start, told, if_true]

/-- An output comes from a program without redeclarations. -/
theorem exists_program_of_output {options : Options} {file : Option String} {source output : String}
    {result : Compilation} (compiled : compile options file source = .ok result)
    (present : result.output = some output) :
    ∃ program, Program.ofText source.toList = .ok program ∧
      (Resolution.ofOutline (.ofProgram program)).conflicts = [] := by
  unfold compile at compiled
  split at compiled
  · cases compiled
  · cases compiled
    cases present
  · rename_i program parsed
    refine ⟨program, parsed, ?_⟩
    by_contra conflicting
    cases compiled
    rw [output_eq_none_of_conflicts conflicting] at present
    cases present

end LoopCapture.Compilation
