import LoopCapture.Program.Build
import LoopCapture.Proofs.Runs.Program

/-!
# Variables of declarations

Where a declaration or a loop over a collection assigns to the name that it declares, that name has a
variable, and where `this` is read, it has one too. A run with alarms for the lack of such a variable
is the run itself, whatever the alarms do.
-/

set_option autoImplicit false

namespace LoopCapture

/-! ## Runs with other ways of access -/

def Exec.runProgramBy (access : Access) (scoping : Scoping) (fuel : Nat) (program : Program) :
    Exec Unit := do
  execBody scoping (performBy access scoping fuel) Machine.globalFrame program.body
  runTimers fuel (performBy access scoping fuel)

def Exec.callByNameBy (access : Access) (scoping : Scoping) (fuel : Nat) (name : String)
    (args : List Value) : Exec Value := do
  let function ← getVariable Machine.globalFrame name
  (performBy access scoping fuel).invoke function .undefined args

/-- The function that a value stands for, if it does, was made in one of the given frames. -/
def Value.MadeIn (frames : Frames Value) : Value → Prop
  | .function _ closure => (frames.frame? closure.frame).isSome = true
  | .functionMethod _ _ target => target.MadeIn frames
  | _ => True

def ValuesMadeIn (frames : Frames Value) (values : List Value) : Prop :=
  ∀ value ∈ values, value.MadeIn frames

/-- The machines after any number of runs and calls, however these end, with functions made on the
machine itself and with arrays of such. -/
inductive Machine.Reached (scoping : Scoping) : Machine → Prop where
  | start : Reached scoping Machine.initial
  | run {machine : Machine} (fuel : Nat) (program : Program) : Reached scoping machine →
      Reached scoping (Exec.runProgram scoping fuel program machine).machine
  | call {machine : Machine} (fuel : Nat) (name : String) {args : List Value} :
      Reached scoping machine → ValuesMadeIn machine.frames args →
      Reached scoping (Exec.callByName scoping fuel name args machine).machine
  | invoke {machine : Machine} (fuel : Nat) {function this : Value} {args : List Value} :
      Reached scoping machine → ValuesMadeIn machine.frames (function :: this :: args) →
      Reached scoping ((perform scoping fuel).invoke function this args machine).machine
  | array {machine : Machine} {items : List Value} :
      Reached scoping machine → ValuesMadeIn machine.frames items →
      Reached scoping (Exec.newArray items.toArray machine).machine

/-! ## Watching for names -/

theorem Exec.guarded_eq {α : Type} {machine after : Machine} {frame : FrameId} {name : String}
    {alarm exec : Exec α} {value : α} (bound : machine.frames.Binds frame name)
    (ends : exec machine = .done value after) :
    Exec.guarded frame name alarm exec machine = exec machine := by
  unfold Exec.guarded
  rw [if_pos (show (machine.frames.find? frame name).isSome = true from bound), ends]

theorem Exec.setVariable_of_binds {machine : Machine} {frame : FrameId} {name : String}
    (bound : machine.frames.Binds frame name) (value : Value) :
    ∃ after, Exec.setVariable frame name value machine = .done () after := by
  obtain ⟨owner, found⟩ := Option.isSome_iff_exists.mp bound
  simp [Exec.setVariable, bind, Exec.bind, Exec.read, found, Exec.define, Exec.modify]

theorem Exec.getVariable_of_binds {machine : Machine} {frame : FrameId} {name : String}
    (bound : machine.frames.Binds frame name) :
    ∃ value, Exec.getVariable frame name machine = .done value machine := by
  obtain ⟨value, found⟩ := bound.exists_value
  exact ⟨value, by simp [Exec.getVariable, bind, Exec.bind, Exec.read, found, pure, Exec.pure]⟩

/-! ## Reached machines -/

theorem Program.exists_ofText {source : List Char} (read : (Program.ofText source).isOk = true) :
    ∃ program, Program.ofText source = .ok program := by
  cases parsed : Program.ofText source with
  | ok program => exact ⟨program, rfl⟩
  | error error => rw [parsed] at read; cases read

/-- By induction on the depth: one round of the rules agrees if the rounds below do. -/
theorem perform_agrees_performBy [Watch] (scoping : Scoping) (fuel : Nat) :
    Performer.Agrees scoping (perform scoping fuel) (performBy Watch.access scoping fuel) := by
  induction fuel with
  | zero =>
      exact ⟨fun _ _ => .stop trivial fun _ => trivial, fun _ _ => .stop trivial fun _ => trivial,
        fun _ _ _ => .stop trivial fun _ => trivial⟩
  | succ fuel ih => exact ih.step fuel

section Sound

variable [Watch] (free : ¬ Watch.jumps) {scoping : Scoping} {machine : Machine}

include free

theorem Machine.Sound.value (sound : machine.Sound) {value : Value}
    (made : value.MadeIn machine.frames) : value.Sound machine.frames := by
  induction value with
  | function stamp closure =>
      obtain ⟨frame, found⟩ := Option.isSome_iff_exists.mp made
      exact ⟨fun watched => absurd watched free, sound.served _ frame found⟩
  | functionMethod stamp method target targetIH => exact targetIH made
  | _ => trivial

theorem Machine.Sound.values (sound : machine.Sound) {values : List Value}
    (made : ValuesMadeIn machine.frames values) : ValuesSound machine.frames values :=
  fun value member => sound.value free (made value member)

theorem runProgram_agrees {frames : Frames Value} (grows : Machine.initial.frames.Grows frames)
    (scoping : Scoping) (fuel : Nat) (program : Program) :
    Exec.Agree frames .program AnyEnd (Exec.runProgram scoping fuel program)
      (Exec.runProgramBy Watch.access scoping fuel program) :=
  (perform_agrees_performBy scoping fuel).runProgram (fun watched => absurd watched free)
    (Machine.globalFrame_served grows) fuel

/-- Runs and calls keep machines sound, and the frame of the program stays. -/
theorem Machine.Reached.sound (reached : machine.Reached scoping) :
    Machine.initial.frames.Grows machine.frames ∧ machine.Sound := by
  have agree := perform_agrees_performBy scoping
  induction reached with
  | start => exact ⟨.refl _, Machine.initial_sound⟩
  | run fuel program _ ih =>
      have ends := (runProgram_agrees free ih.1 scoping fuel program _ (.refl _) ih.2).2.machine
      exact ⟨ih.1.trans ends.1, ends.2⟩
  | call fuel name _ made ih =>
      have ends := ((agree fuel).callByName (ih.2.values free made) name _ (.refl _) ih.2).2.machine
      exact ⟨ih.1.trans ends.1, ends.2⟩
  | invoke fuel _ made ih =>
      have all := List.forall_mem_cons.mp (ih.2.values free made)
      have rest := List.forall_mem_cons.mp all.2
      have ends := ((agree fuel).invoke all.1 rest.1 rest.2 _ (.refl _) ih.2).2.machine
      exact ⟨ih.1.trans ends.1, ends.2⟩
  | array _ made ih => exact ⟨ih.1, ih.2.pushItems (ih.2.values free made)⟩

end Sound

@[reducible]
def Watch.forNames (unassigned : String → Exec Unit) (noThis : Exec Value) : Watch where
  jumps := False
  names := True
  access := .alarmed unassigned noThis
  assign_eq value bound := by
    obtain ⟨after, ends⟩ := Exec.setVariable_of_binds (bound trivial) value
    exact Exec.guarded_eq (bound trivial) ends
  this_eq bound := by
    obtain ⟨value, ends⟩ := Exec.getVariable_of_binds (bound trivial)
    exact Exec.guarded_eq (bound trivial) ends

namespace Machine.Reached

/-- On every machine that runs and calls lead to, no alarm is raised: neither where a declaration or a
loop over a collection assigns to the name it declares, nor where `this` is read, by the program, by
timers or by the functions that are called. There is a variable each time, and the assignment or the
reading does not stop. Otherwise some alarm would make a difference, such as one that marks the machine
for good. Without alarms the rules are those of the machine. -/
theorem no_alarm {scoping : Scoping} {machine : Machine} (reached : machine.Reached scoping)
    (fuel : Nat) (unassigned : String → Exec Unit) (noThis : Exec Value) :
    performBy .plain scoping fuel = perform scoping fuel ∧ (∀ program : Program,
      Exec.runProgramBy (.alarmed unassigned noThis) scoping fuel program machine =
        Exec.runProgram scoping fuel program machine) ∧
    ∀ args : List Value, ValuesMadeIn machine.frames args → (∀ name : String,
        Exec.callByNameBy (.alarmed unassigned noThis) scoping fuel name args machine =
          Exec.callByName scoping fuel name args machine) ∧
      ∀ function this : Value, function.MadeIn machine.frames → this.MadeIn machine.frames →
        (performBy (.alarmed unassigned noThis) scoping fuel).invoke function this args machine =
          (perform scoping fuel).invoke function this args machine := by
  let watch := Watch.forNames unassigned noThis
  have free : ¬ Watch.jumps := id
  have agree := perform_agrees_performBy scoping fuel
  obtain ⟨grows, sound⟩ := reached.sound free
  refine ⟨performBy_plain scoping fuel, fun program => ?_, fun args made => ⟨fun name => ?_,
    fun function this functionMade thisMade => ?_⟩⟩
  · exact (runProgram_agrees free grows scoping fuel program machine (.refl _) sound).1.symm
  · exact (agree.callByName (sound.values free made) name machine (.refl _) sound).1.symm
  · exact (agree.invoke (sound.value free functionMade) (sound.value free thisMade)
      (sound.values free made) machine (.refl _) sound).1.symm

/-- Declarations under a loop, a `catch` and a `switch`, in an arrow function and after a timer. -/
theorem no_alarm_nested :
    ∃ program : Program,
      Program.ofText ("function f(a) \x7b for (var k of a) \x7b try \x7b var x = k; throw this; " ++
        "\x7d catch (e) \x7b switch (x) \x7b default: for (let i = 0; i < 2; i++) " ++
        "var y = () => \x7b var z = this; return z; \x7d; \x7d \x7d \x7d return y; \x7d " ++
        "setTimeout(f, 1, 'ab');").toList = .ok program ∧
      Exec.runProgramBy (.alarmed (fun _ => Exec.stop .exhausted) (Exec.stop .exhausted)) .block 100
          program Machine.initial = Exec.runProgram .block 100 program Machine.initial ∧
      Exec.callByNameBy (.alarmed (fun _ => Exec.stop .exhausted) (Exec.stop .exhausted)) .block 100
          "f" [.text "a"] (Exec.runProgram .block 100 program Machine.initial).machine =
        Exec.callByName .block 100 "f" [.text "a"]
          (Exec.runProgram .block 100 program Machine.initial).machine :=
  (Program.exists_ofText (by decide +kernel)).imp fun program read =>
    have made := List.forall_mem_singleton.mpr trivial
    ⟨read, (no_alarm .start 100 _ _).2.1 program,
      ((no_alarm (.run 100 program .start) 100 _ _).2.2 [.text "a"] made).1 "f"⟩

end Machine.Reached

end LoopCapture
