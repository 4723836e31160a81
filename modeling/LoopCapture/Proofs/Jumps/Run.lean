import LoopCapture.Program.Build
import LoopCapture.Proofs.Jumps.Confined

/-!
# Jumps in runs of programs

A run of a well targeted program does not end with a jump, nor does any later call of one of its
functions. The same holds for all calls on the way: a run in which each call is watched, and what
follows a jump out of one is put in the hands of an observer, is the run itself, whatever the observer
does.
-/

set_option autoImplicit false

namespace LoopCapture

/-! ## Watched runs -/

namespace Exec

/-- Carries out a call. If it ends with a jump, an observer decides how to go on. -/
def watch (observer : Jump → Exec Value) (call : Exec Value) : Exec Value := fun machine =>
  match call machine with
  | .stopped (.jump jump) machine => observer jump machine
  | outcome => outcome

end Exec

/-- Carries out activities as another performer does, but watches calls. -/
def Performer.watch (observer : Jump → Exec Value) (perform : Performer) : Performer
  | .eval expr frame => perform (.eval expr frame)
  | .exec stmt frame labels => perform (.exec stmt frame labels)
  | .invoke function this args => Exec.watch observer (perform (.invoke function this args))

/-- Carries out activities and watches all calls, at any depth. -/
def performWatched (scoping : Scoping) (observer : Jump → Exec Value) : Nat → Performer
  | 0, _ => Exec.stop .exhausted
  | fuel + 1, activity =>
    ((performWatched scoping observer fuel).step scoping fuel).watch observer activity

/-- Runs a program and watches all calls. -/
def Exec.runWatched (scoping : Scoping) (observer : Jump → Exec Value) (fuel : Nat)
    (program : Program) : Exec Unit := do
  execBody scoping (performWatched scoping observer fuel) Machine.globalFrame program.body
  runTimers fuel (performWatched scoping observer fuel)

/-- Calls a function of the program by name and watches all calls. -/
def Exec.callWatched (scoping : Scoping) (observer : Jump → Exec Value) (fuel : Nat)
    (name : String) (args : List Value) : Exec Value := do
  let function ← getVariable Machine.globalFrame name
  (performWatched scoping observer fuel).invoke function .undefined args

/-- A computation ends with a jump. -/
def Outcome.Jumps {α : Type} : Outcome α → Prop
  | .stopped (.jump _) _ => True
  | _ => False

/-- The machines after a run of a program, however it ends, and after calls of its functions. -/
inductive Machine.After (scoping : Scoping) (program : Program) : Machine → Prop where
  | run (fuel : Nat) :
      After scoping program (Exec.runProgram scoping fuel program Machine.initial).machine
  | call {machine : Machine} (fuel : Nat) (name : String) {args : List Value} :
      After scoping program machine → ValuesTargeted args →
      After scoping program (Exec.callByName scoping fuel name args machine).machine

/-! ## Performers -/

theorem Outcome.Within.not_jumps {α : Type} {post : α → Prop} {outcome : Outcome α}
    (within : outcome.Within .program post) : ¬ outcome.Jumps := by
  cases outcome with
  | done value machine => exact id
  | stopped stop machine =>
      cases stop with
      | jump jump => exact fun _ => Targets.not_allows_program jump within.1
      | _ => exact id

theorem Outcome.Within.machine {α : Type} {targets : Targets} {post : α → Prop}
    {outcome : Outcome α} (within : outcome.Within targets post) :
    outcome.machine.WellTargeted := by
  cases outcome with
  | done value machine => exact within.2
  | stopped stop machine => exact within.2

attribute [local instance] Watch.forJumps

theorem Exec.Agree.watch {frames : Frames Value} {post : Post Value} {first second : Exec Value}
    (agree : Agree frames .program post first second) (observer : Jump → Exec Value) :
    Agree frames .program post first (Exec.watch observer second) := by
  intro machine grows sound
  obtain ⟨same, ended⟩ := agree machine grows sound
  refine ⟨?_, ended⟩
  unfold Exec.watch
  rw [← same]
  cases ends : first machine with
  | done value after => rfl
  | stopped stop after =>
      rw [ends] at ended
      cases stop with
      | jump jump => exact absurd (ended.2.2.2 trivial) (Targets.not_reaches_program jump)
      | _ => rfl

theorem Performer.Agrees.watch {scoping : Scoping} {perform perform' : Performer}
    (agree : Agrees scoping perform perform') (observer : Jump → Exec Value) :
    Agrees scoping perform (perform'.watch observer) where
  eval targeted served := agree.eval targeted served
  exec targeted served := agree.exec targeted served
  invoke functionSound thisSound good :=
    (agree.invoke functionSound thisSound good).watch observer

/-- By induction on the depth: one round of the rules agrees if the rounds below do. -/
theorem perform_agrees (scoping : Scoping) (observer : Jump → Exec Value) (fuel : Nat) :
    Performer.Agrees scoping (perform scoping fuel)
      (performWatched scoping observer fuel) := by
  induction fuel with
  | zero =>
      exact ⟨fun _ _ => .stop trivial fun _ => trivial, fun _ _ => .stop trivial fun _ => trivial,
        fun _ _ _ => .stop trivial fun _ => trivial⟩
  | succ fuel ih =>
      have round := (ih.step fuel).watch observer
      rw [show Watch.access = .plain from rfl, Performer.stepBy_plain] at round
      exact round

theorem perform_confines (scoping : Scoping) (observer : Jump → Exec Value) (fuel : Nat) :
    Performer.Confines (perform scoping fuel) (performWatched scoping observer fuel) :=
  (perform_agrees scoping observer fuel).confines

/-! ## Programs -/

theorem Machine.initial_wellTargeted : Machine.initial.WellTargeted :=
  Machine.sound_forJumps_iff.mp Machine.initial_sound

theorem runProgram_confined {program : Program} (targeted : program.WellTargeted)
    (scoping : Scoping) (observer : Jump → Exec Value) (fuel : Nat) :
    Exec.Confined .program AnyResult (Exec.runProgram scoping fuel program)
      (Exec.runWatched scoping observer fuel program) :=
  ((perform_agrees scoping observer fuel).runProgram (fun _ => targeted) served_forJumps
    fuel).confined fun _ => trivial

theorem callByName_confined {args : List Value} (good : ValuesTargeted args) (scoping : Scoping)
    (observer : Jump → Exec Value) (fuel : Nat) (name : String) :
    Exec.Confined .program Value.WellTargeted (Exec.callByName scoping fuel name args)
      (Exec.callWatched scoping observer fuel name args) :=
  ((perform_agrees scoping observer fuel).callByName (valuesSound_forJumps_iff.mpr good)
    name).confined Value.sound_forJumps_iff.mp

theorem Machine.After.wellTargeted {scoping : Scoping} {program : Program}
    (targeted : program.WellTargeted) {machine : Machine} (after : After scoping program machine) :
    machine.WellTargeted := by
  -- What an observer does is of no account for the machine: take the one that stops.
  induction after with
  | run fuel =>
      exact (runProgram_confined targeted scoping (fun _ => Exec.stop .exhausted) fuel
        Machine.initial Machine.initial_wellTargeted).2.machine
  | call fuel name _ good ih =>
      exact (callByName_confined good scoping (fun _ => Exec.stop .exhausted) fuel name _
        ih).2.machine

/-- No jump leaves a well targeted program or one of its calls. A run does not end with a jump, and
neither does a call of one of its functions afterwards, by name or of a well targeted value. Nor does
any call on the way, of the program or of a timer: watching all of them makes no difference, even to
an observer that would mark the machine for good. -/
theorem Program.jumps_confined {program : Program} (targeted : program.WellTargeted)
    (scoping : Scoping) (fuel : Nat) (observer : Jump → Exec Value) :
    (¬ (Exec.runProgram scoping fuel program Machine.initial).Jumps ∧
      Exec.runWatched scoping observer fuel program Machine.initial =
        Exec.runProgram scoping fuel program Machine.initial) ∧
    ∀ machine : Machine, Machine.After scoping program machine →
      ∀ args : List Value, ValuesTargeted args →
        (∀ name : String,
          ¬ (Exec.callByName scoping fuel name args machine).Jumps ∧
            Exec.callWatched scoping observer fuel name args machine =
              Exec.callByName scoping fuel name args machine) ∧
        ∀ function this : Value, function.WellTargeted → this.WellTargeted →
          ¬ ((perform scoping fuel).invoke function this args machine).Jumps ∧
            (performWatched scoping observer fuel).invoke function this args machine =
              (perform scoping fuel).invoke function this args machine := by
  refine ⟨?_, fun machine after args good => ⟨fun name => ?_, fun function this sound thisSound => ?_⟩⟩
  · obtain ⟨same, within⟩ := runProgram_confined targeted scoping observer fuel Machine.initial
      Machine.initial_wellTargeted
    exact ⟨within.not_jumps, same.symm⟩
  · obtain ⟨same, within⟩ := callByName_confined good scoping observer fuel name machine
      (after.wellTargeted targeted)
    exact ⟨within.not_jumps, same.symm⟩
  · obtain ⟨same, within⟩ := (perform_confines scoping observer fuel).invoke sound thisSound good
      machine (after.wellTargeted targeted)
    exact ⟨within.not_jumps, same.symm⟩

theorem Program.exists_wellTargeted {source : List Char}
    (checked : (match Program.ofText source with
      | .ok program => decide program.WellTargeted
      | .error _ => false) = true) :
    ∃ program : Program, Program.ofText source = .ok program ∧ program.WellTargeted := by
  split at checked
  · exact ⟨_, ‹_›, of_decide_eq_true checked⟩
  · cases checked

/-- A program with jumps out of nested loops, a `switch`, a `finally` block, a callback and a timer. -/
theorem Program.jumps_confined_search :
    ∃ program : Program,
      Program.ofText ("function f(a) \x7b l: for (;;) \x7b for (let j = 0; j < 3; j++) \x7b " ++
        "switch (a) \x7b case j: continue l; default: break l; \x7d " ++
        "try \x7b continue; \x7d finally \x7b return j; \x7d \x7d \x7d \x7d " ++
        "setTimeout(f); [1].map(function (x) \x7b return f(x); \x7d);").toList =
          .ok program ∧
      program.WellTargeted ∧
      ¬ (Exec.runProgram .block 100 program Machine.initial).Jumps ∧
      ¬ (Exec.callByName .block 100 "f" [.text "a"]
        (Exec.runProgram .block 100 program Machine.initial).machine).Jumps :=
  (exists_wellTargeted (by decide +kernel)).imp fun program ⟨read, targeted⟩ =>
    have confined := program.jumps_confined targeted .block 100 fun _ => Exec.stop .exhausted
    have later := confined.2 _ (.run 100) [.text "a"] (.cons trivial .nil)
    ⟨read, targeted, confined.1.1, (later.1 "f").1⟩

end LoopCapture
