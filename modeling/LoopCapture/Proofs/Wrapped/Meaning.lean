import LoopCapture.Proofs.Outline.Regular
import LoopCapture.Proofs.Simulation.Ending
import LoopCapture.Proofs.Wrapped.FitsMovable

/-!
# Wrapping keeps the meaning of programs

A program means the same after the bodies of some of its loops have been moved into functions, as
long as these bodies are in braces and nothing in them stands in the way. The run of the new program
goes through frames that the old one does not have, but it writes the same lines and ends in the
same way.
-/

set_option autoImplicit false

namespace LoopCapture.Program

/-- The shapes of a program are ready if its chosen loops can be moved. -/
theorem ready_of_movable {chosen : Loc → Bool} {source : List Char} {program : Program}
    (parsed : ofText source = .ok program)
    (movable : ∀ loop ∈ (Outline.ofProgram program).subtrees, loop.label.node.isLoop = true →
      chosen loop.label.node.loc = true → Outline.Movable loop) :
    Ready (.wrapping chosen) (.inFunction true) (Outline.stmts program.body)
      (hoistedNames .block program.body) where
  named used := nomatch names_unreserved parsed used
  movable := by
    let root : Node := ⟨⟨.plain, .program, program.loc⟩, 0⟩
    exact ⟨[root], 1, fun loop inside => movable loop (List.mem_cons_of_mem _ inside)⟩
  arguments := nofun
  returns := nofun
  plain := nofun

/-- A program whose chosen loops can be moved ends in the same way, with the same lines written, as
it does with these loops wrapped. Loops are chosen by their places, which tell them apart. -/
theorem ends_iff_wrapLoops_ends (chosen : Loc → Bool) {source : List Char} {program : Program}
    (parsed : ofText source = .ok program)
    (movable : ∀ loop ∈ (Outline.ofProgram program).subtrees, loop.label.node.isLoop = true →
      chosen loop.label.node.loc = true → Outline.Movable loop)
    (lines : Array String) (ending : Ending) :
    program.Ends .block lines ending ↔ (program.wrapLoops chosen).Ends .block lines ending :=
  ends_wrapLoops (Ready.stmts (ready_of_movable parsed movable)) lines ending

/-- A loop over a collection with a closure, and a loop inside it that a `break` ends. -/
theorem ends_iff_wrapLoops_ends_nested : ∃ program,
    ofText "for (const x of xs) { f(() => x); while (g(x)) { if (x) break; } }".toList =
      .ok program ∧
    ∀ lines ending, program.Ends .block lines ending ↔
      (program.wrapLoops fun loc => loc.start == 0).Ends .block lines ending := by
  have checked : ((ofText
        "for (const x of xs) { f(() => x); while (g(x)) { if (x) break; } }".toList).toOption.any
        fun program =>
        decide (∀ loop ∈ (Outline.ofProgram program).subtrees,
          loop.label.node.isLoop = true → (loop.label.node.loc.start == 0) = true →
          Outline.Movable loop)) = true := by
    decide +kernel
  generalize String.toList _ = source at checked ⊢
  obtain ⟨program, parsed, checked⟩ := Program.exists_of_any checked
  exact ⟨program, parsed, ends_iff_wrapLoops_ends _ parsed (of_decide_eq_true checked)⟩

end LoopCapture.Program
