import LoopCapture.Proofs.Outline.Regular
import LoopCapture.Proofs.Simulation.Host
import LoopCapture.Proofs.Wrapped.FitsMovable

/-!
# Programs without block scopes

Block scopes matter only to `let`, to `const` and to functions declared in blocks. A program with none
of these runs through more frames if it has block scopes, and closures may keep them for as long as
they like; but the additional frames stay empty, and no host can see them.
-/

set_option autoImplicit false

namespace LoopCapture.Program

/-- The shapes of a plain program are ready where only one side has block scopes. -/
theorem ready_of_plain {source : List Char} {program : Program} (parsed : ofText source = .ok program)
    (plain : ∀ part ∈ (Outline.shape program).subtrees, Outline.Plain part) :
    Ready .scoping (.inFunction true) (Outline.stmts program.body)
      (hoistedNames .function program.body) where
  named used := nomatch names_unreserved parsed used
  movable := ⟨[], 0, fun _ _ _ impossible => nomatch impossible⟩
  arguments := nofun
  returns := nofun
  plain := fun _ part inside => plain part (List.mem_cons_of_mem _ inside)

/-- A program that declares nothing that belongs to blocks shows the same to every host, whether
blocks have scopes or not. -/
theorem shows_function_iff_shows_block {source : List Char} {program : Program}
    (parsed : ofText source = .ok program)
    (plain : ∀ part ∈ (Outline.shape program).subtrees, Outline.Plain part)
    (steps : List HostStep) (sights : List Sight) :
    program.Shows .function steps sights ↔ program.Shows .block steps sights := by
  have fits : Fits.stmts .scoping (.inFunction true) program.body :=
    Ready.stmts (ready_of_plain parsed plain)
  have same := shows_iff fits steps sights
  rwa [show Difference.scoping.chosen = fun _ => false from rfl, wrapLoops_none] at same

/-- A closure that outlives its block, a handler, a timer set in a block, and calls afterwards. -/
theorem shows_function_iff_shows_block_closures : ∃ program sights,
    ofText ("function f(x) { { var g = () => x; } try { throw g; } catch (e) { return e; } }" ++
      "{ setTimeout(f, 1); }").toList = .ok program ∧
    program.Shows .function [.run, .call "f" [.text "x"], .call "f" [.earlier 1]] sights ∧
    program.Shows .block [.run, .call "f" [.text "x"], .call "f" [.earlier 1]] sights := by
  have checked : ((ofText
        ("function f(x) { { var g = () => x; } try { throw g; } catch (e) { return e; } }" ++
          "{ setTimeout(f, 1); }").toList).toOption.any fun program =>
        decide ((∀ part ∈ (Outline.shape program).subtrees, Outline.Plain part) ∧
          (program.sights .function 15 [.run, .call "f" [.text "x"], .call "f" [.earlier 1]] []
            Machine.initial).isSome = true)) = true := by
    decide +kernel
  generalize String.toList _ = source at checked ⊢
  obtain ⟨program, parsed, checked⟩ := Program.exists_of_any checked
  obtain ⟨plain, isSome⟩ := of_decide_eq_true checked
  obtain ⟨sights, shown⟩ := Option.isSome_iff_exists.mp isSome
  have shows' : program.Shows .function _ sights := ⟨15, shown⟩
  exact ⟨program, sights, parsed, shows',
    (shows_function_iff_shows_block parsed plain _ sights).mp shows'⟩

end LoopCapture.Program
