import LoopCapture.Proofs.Machine.TimerLaws
import LoopCapture.Proofs.Runs.Statement

/-!
# Runs agree

One round of the rules agrees if the rounds below do, and with it runs of programs with their timers.
-/

set_option autoImplicit false

namespace LoopCapture

theorem Machine.frame_of_initial {id : FrameId} {frame : Frame Value}
    (found : Machine.initial.frames.frame? id = some frame) :
    id = 0 ∧ ⟨none, true, Machine.globals⟩ = frame := by
  simpa [Frames.frame?, Machine.initial, List.getElem?_singleton] using found

variable [Watch] {frames : Frames Value} {scoping : Scoping} {perform perform' : Performer}

theorem Exec.Agree.takeTimer {targets : Targets} :
    Safe frames targets (Maybe Callback.Sound) Exec.takeTimer := by
  refine update fun machine grows sound => ?_
  unfold Clock.next?
  cases taken : Clock.first? machine.clock.pending with
  | none => exact ⟨.refl _, sound, fun _ found => absurd found (by simp)⟩
  | some pair =>
      obtain ⟨timer, rest⟩ := pair
      have same := Clock.first?_perm taken
      refine ⟨.refl _, ⟨sound.served, sound.frames, sound.arrays, fun other inRest => ?_⟩,
        fun callback isAction => ?_⟩
      · exact sound.pending other (same.mem_iff.mp (List.mem_cons_of_mem _ inRest))
      · exact Option.some.inj isAction ▸
          sound.pending timer (same.mem_iff.mp List.mem_cons_self)

theorem Performer.Agrees.step (agree : Agrees scoping perform perform') (fuel : Nat) :
    Agrees scoping (perform.step scoping fuel) (perform'.stepBy Watch.access scoping fuel) where
  eval targeted served := agree.evalExpr targeted served
  exec targeted served := agree.execStmt targeted fuel served
  invoke functionSound thisSound good := agree.callValue functionSound thisSound good

theorem Performer.Agrees.runTimers (agree : Agrees scoping perform perform') (fuel : Nat) :
    Exec.Agree frames .program AnyEnd (Exec.runTimers fuel perform)
      (Exec.runTimers fuel perform') := by
  refine .iterate AnyEnd (fun _ _ _ => ?_) fuel trivial
  refine Exec.Agree.takeTimer.bind fun _ taken sound => ?_
  cases taken with
  | none => exact .pure fun _ _ => trivial
  | some callback =>
      obtain ⟨functionSound, good⟩ := sound callback rfl
      exact (agree.invoke functionSound undefined_sound good).bind fun _ _ _ =>
        .pure fun _ _ => trivial

/-- Runs of a program: its statements and then its timers. -/
theorem Performer.Agrees.runProgram (agree : Agrees scoping perform perform')
    {program : Program} (targeted : Targeted program.WellTargeted)
    (served : Served frames Machine.globalFrame []) (fuel : Nat) :
    Exec.Agree frames .program AnyEnd
      (do
        Exec.execBody scoping perform Machine.globalFrame program.body
        Exec.runTimers fuel perform)
      (do
        Exec.execBody scoping perform' Machine.globalFrame program.body
        Exec.runTimers fuel perform') :=
  (agree.execBody targeted served).bind fun _ _ _ => agree.runTimers fuel

theorem Performer.Agrees.callByName (agree : Agrees scoping perform perform')
    {args : List Value} (good : ValuesSound frames args) (name : String) :
    Exec.Agree frames .program Value.Sound
      (do perform.invoke (← Exec.getVariable Machine.globalFrame name) .undefined args)
      (do perform'.invoke (← Exec.getVariable Machine.globalFrame name) .undefined args) :=
  (Exec.Agree.getVariable _ name).bind fun grows _ sound =>
    agree.invoke sound undefined_sound (good.mono grows)

theorem Machine.initial_sound : Machine.initial.Sound where
  served id frame found := by
    obtain ⟨rfl, rfl⟩ := Machine.frame_of_initial found
    intro _ name member
    obtain rfl := List.mem_singleton.mp member
    exact .own found (by simp [Machine.globals, Entries.has, Entries.get?])
  frames id frame found := by
    obtain ⟨-, rfl⟩ := Machine.frame_of_initial found
    simp [Machine.globals, Value.Sound]
  arrays id items found := by simp [Machine.initial] at found
  pending timer member := absurd member List.not_mem_nil

/-- The frame of the program is served at all times. -/
theorem Machine.globalFrame_served (grows : Machine.initial.frames.Grows frames) :
    Served frames Machine.globalFrame [] :=
  (Machine.initial_sound.served Machine.globalFrame _ rfl).mono grows

end LoopCapture
