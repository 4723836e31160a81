import LoopCapture.Proofs.Runs.Program

/-!
# Computations that confine jumps

A value is well targeted if the functions it stands for are, and a machine is if all values it holds
are: in variables, in arrays and in calls that have been put off. A computation confines jumps to
given targets if from a well targeted machine it ends with a well targeted one, and with a jump only
if that has one of the targets.

The predicate speaks of two computations that end alike, since a run is compared below with one in
which jumps out of functions would be seen.
-/

set_option autoImplicit false

namespace LoopCapture

variable {frames : Frames Value}

/-! ## Values and machines -/

def Value.WellTargeted : Value → Prop
  | .function _ closure => closure.body.WellTargeted
  | .functionMethod _ _ target => target.WellTargeted
  | _ => True

def ValuesTargeted (values : List Value) : Prop := ∀ value ∈ values, value.WellTargeted

/-- The values of a call that has been put off are well targeted. -/
def Callback.WellTargeted (callback : Callback) : Prop :=
  callback.function.WellTargeted ∧ ValuesTargeted callback.args

def Frame.WellTargeted (frame : Frame Value) : Prop :=
  ∀ entry ∈ frame.slots, entry.2.WellTargeted

/-- All values that a machine holds are well targeted. -/
structure Machine.WellTargeted (machine : Machine) : Prop where
  frames : ∀ (id : FrameId) (frame : Frame Value), machine.frames.frame? id = some frame →
    frame.WellTargeted
  arrays : ∀ (id : ArrayId) (items : Array Value), machine.arrays[id]? = some items →
    ValuesTargeted items.toList
  pending : ∀ timer ∈ machine.clock.pending, timer.action.WellTargeted

/-- A jump may be taken: it has a target, and a returned value is well targeted. -/
def Targets.Allows (targets : Targets) : Jump → Prop
  | .breaks label => targets.Breaks label
  | .continues label => targets.Continues label
  | .returns value => targets.inFunction = true ∧ value.WellTargeted

/-- A computation may stop for a reason. -/
def Targets.Permits (targets : Targets) : Stop → Prop
  | .jump jump => targets.Allows jump
  | .throws value _ => value.WellTargeted
  | .fault _ => True
  | .exhausted => True

/-- An end of a computation: the machine is well targeted, and so is the result, or the stop is
permitted. -/
def Outcome.Within {α : Type} (targets : Targets) (post : α → Prop) : Outcome α → Prop
  | .done value machine => post value ∧ machine.WellTargeted
  | .stopped stop machine => targets.Permits stop ∧ machine.WellTargeted

/-- Two computations end alike, and within the targets. -/
def Exec.Confined {α : Type} (targets : Targets) (post : α → Prop) (first second : Exec α) : Prop :=
  ∀ machine : Machine, machine.WellTargeted →
    first machine = second machine ∧ (first machine).Within targets post

/-- A computation ends within the targets. -/
abbrev Exec.Confines {α : Type} (targets : Targets) (post : α → Prop) (exec : Exec α) : Prop :=
  Confined targets post exec exec

/-- Nothing is asked of a result. -/
def AnyResult {α : Type} (_ : α) : Prop := True

theorem Targets.not_allows_program (jump : Jump) : ¬ Targets.program.Allows jump := by
  cases jump with
  | breaks label => cases label <;> simp [Allows, Breaks, program]
  | continues label => cases label <;> simp [Allows, Continues, program]
  | returns value => simp [Allows, program]

theorem ValuesTargeted.nil : ValuesTargeted [] :=
  fun _ member => absurd member List.not_mem_nil

theorem ValuesTargeted.cons {value : Value} {rest : List Value} (first : value.WellTargeted)
    (others : ValuesTargeted rest) : ValuesTargeted (value :: rest) :=
  List.forall_mem_cons.mpr ⟨first, others⟩

/-- Two performers do the same and confine the jumps of activities to their targets: evaluations and
calls end without one. -/
structure Performer.Confines (perform perform' : Performer) : Prop where
  eval : ∀ {expr : Expr}, expr.WellTargeted → ∀ frame : FrameId,
    Exec.Confined .program Value.WellTargeted (perform.eval expr frame) (perform'.eval expr frame)
  exec : ∀ {targets : Targets} {labels : List String} {stmt : Stmt},
    stmt.WellTargeted targets labels → ∀ frame : FrameId,
    Exec.Confined targets AnyResult (perform (.exec stmt frame labels))
      (perform' (.exec stmt frame labels))
  invoke : ∀ {function this : Value} {args : List Value}, function.WellTargeted →
    this.WellTargeted → ValuesTargeted args →
    Exec.Confined .program Value.WellTargeted (perform.invoke function this args)
      (perform'.invoke function this args)

/-! ## Watching for jumps

Where only jumps are watched for, computations that agree confine them. -/

local instance Watch.forJumps : Watch where
  jumps := True
  names := False
  access := .plain
  assign_eq _ _ := rfl
  this_eq _ := rfl

theorem served_forJumps {frame : FrameId} {names : List String} :
    Served frames frame names := False.elim

theorem Value.sound_forJumps_iff {value : Value} :
    value.Sound frames ↔ value.WellTargeted := by
  induction value with
  | function stamp closure =>
      exact ⟨fun sound => sound.1 trivial, fun targeted => ⟨fun _ => targeted, served_forJumps⟩⟩
  | functionMethod stamp method target targetIH => exact targetIH
  | _ => exact Iff.rfl

theorem valuesSound_forJumps_iff {values : List Value} :
    ValuesSound frames values ↔ ValuesTargeted values :=
  forall₂_congr fun _ _ => Value.sound_forJumps_iff

theorem Machine.sound_forJumps_iff {machine : Machine} :
    machine.Sound ↔ machine.WellTargeted := by
  constructor
  · intro sound
    exact {
      frames := fun id frame found entry member =>
        Value.sound_forJumps_iff.mp (sound.frames id frame found entry member)
      arrays := fun id items found => valuesSound_forJumps_iff.mp (sound.arrays id items found)
      pending := fun timer member =>
        ⟨Value.sound_forJumps_iff.mp (sound.pending timer member).1,
          valuesSound_forJumps_iff.mp (sound.pending timer member).2⟩ }
  · intro targeted
    exact {
      served := fun _ _ _ => served_forJumps
      frames := fun id frame found entry member =>
        Value.sound_forJumps_iff.mpr (targeted.frames id frame found entry member)
      arrays := fun id items found => valuesSound_forJumps_iff.mpr (targeted.arrays id items found)
      pending := fun timer member =>
        ⟨Value.sound_forJumps_iff.mpr (targeted.pending timer member).1,
          valuesSound_forJumps_iff.mpr (targeted.pending timer member).2⟩ }

theorem Targets.permits_of_reached {targets : Targets} {stop : Stop}
    (reached : targets.Reached stop) (sound : stop.Sound frames) :
    targets.Permits stop := by
  cases stop with
  | jump jump =>
      cases jump with
      | returns value => exact ⟨reached, Value.sound_forJumps_iff.mp sound⟩
      | _ => exact reached
  | throws value text => exact Value.sound_forJumps_iff.mp sound
  | _ => trivial

theorem Exec.Agree.confined {α : Type} {targets : Targets} {post : Post α} {post' : α → Prop}
    {first second : Exec α} (agree : Agree .empty targets post first second)
    (implies : ∀ {frames : Frames Value} {value : α}, post frames value → post' value) :
    Confined targets post' first second := by
  intro machine targeted
  have grows : Frames.empty.Grows machine.frames := fun _ _ found => by
    simp [Frames.frame?, Frames.empty] at found
  obtain ⟨same, ended⟩ := agree machine grows (Machine.sound_forJumps_iff.mpr targeted)
  refine ⟨same, ?_⟩
  cases ends : first machine with
  | done value after =>
      rw [ends] at ended
      obtain ⟨-, afterSound, good⟩ := ended
      exact ⟨implies good, Machine.sound_forJumps_iff.mp afterSound⟩
  | stopped stop after =>
      rw [ends] at ended
      obtain ⟨-, afterSound, stopSound, reached⟩ := ended
      exact ⟨Targets.permits_of_reached (reached trivial) stopSound,
        Machine.sound_forJumps_iff.mp afterSound⟩

theorem Performer.Agrees.confines {scoping : Scoping} {perform perform' : Performer}
    (agree : Agrees scoping perform perform') : Confines perform perform' where
  eval targeted _ :=
    (agree.eval (fun _ => targeted) served_forJumps).confined Value.sound_forJumps_iff.mp
  exec targeted _ := (agree.exec (fun _ => targeted) served_forJumps).confined fun _ => trivial
  invoke function this args :=
    (agree.invoke (Value.sound_forJumps_iff.mpr function) (Value.sound_forJumps_iff.mpr this)
      (valuesSound_forJumps_iff.mpr args)).confined Value.sound_forJumps_iff.mp

end LoopCapture
