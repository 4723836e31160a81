import LoopCapture.Proofs.Jumps.Targets
import LoopCapture.Proofs.Machine.Binding
import LoopCapture.Proofs.Runs.Access

/-!
# Computations that agree

A run is watched for two things: that jumps have targets, and that there are variables for the names
of declarations and for `this`. For the first, the functions that the machine holds are well targeted,
in variables, in arrays and in calls that have been put off; for the second, `this` has a variable
from the frames on that they were made in. From a machine that is sound in this sense, computations
are to end with a sound one, and with a jump only if that has one of the given targets.

A run is compared with one in which what must not happen would be seen, so all is said of two
computations that end alike. Facts about frames are stated for the frames at some point and then hold
for all later ones, since frames only grow.
-/

set_option autoImplicit false

namespace LoopCapture

/-- What a run is watched for. The ways of access in the other run are those of the machine where
there are variables, and everywhere if names are not watched. -/
class Watch where
  jumps : Prop
  names : Prop
  access : Access
  assign_eq : ∀ {machine : Machine} {frame : FrameId} {name : String} (value : Value),
    (names → machine.frames.Binds frame name) →
    access.assign frame name value machine = Exec.setVariable frame name value machine
  this_eq : ∀ {machine : Machine} {frame : FrameId}, (names → machine.frames.Binds frame "this") →
    access.this frame machine = Exec.getVariable frame "this" machine

/-! ## Values and machines -/

section Soundness

variable [Watch] (frames : Frames Value)

/-- Part of a program is well targeted, if that matters. -/
def Targeted (wellTargeted : Prop) : Prop := Watch.jumps → wellTargeted

/-- From a frame on, `this` and the given names have variables, if that matters. -/
def Served (frame : FrameId) (names : List String) : Prop :=
  Watch.names → ∀ name ∈ "this" :: names, frames.Binds frame name

def Closure.Sound (closure : Closure) : Prop :=
  Targeted closure.body.WellTargeted ∧ Served frames closure.frame []

def Value.Sound : Value → Prop
  | .function _ closure => closure.Sound frames
  | .functionMethod _ _ target => target.Sound
  | _ => True

def ValuesSound (values : List Value) : Prop := ∀ value ∈ values, value.Sound frames

/-- The values of a call that has been put off are sound. -/
def Callback.Sound (callback : Callback) : Prop :=
  callback.function.Sound frames ∧ ValuesSound frames callback.args

def Stop.Sound : Stop → Prop
  | .jump (.returns value) => value.Sound frames
  | .throws value _ => value.Sound frames
  | _ => True

end Soundness

/-- All values that a machine holds are sound, and all frames are served. -/
structure Machine.Sound [Watch] (machine : Machine) : Prop where
  served : ∀ (id : FrameId) (frame : Frame Value), machine.frames.frame? id = some frame →
    Served machine.frames id []
  frames : ∀ (id : FrameId) (frame : Frame Value), machine.frames.frame? id = some frame →
    ∀ entry ∈ frame.slots, entry.2.Sound machine.frames
  arrays : ∀ (id : ArrayId) (items : Array Value), machine.arrays[id]? = some items →
    ValuesSound machine.frames items.toList
  pending : ∀ timer ∈ machine.clock.pending, timer.action.Sound machine.frames

/-- A jump has a target. -/
def Targets.Reaches (targets : Targets) : Jump → Prop
  | .breaks label => targets.Breaks label
  | .continues label => targets.Continues label
  | .returns _ => targets.inFunction = true

/-- If a computation stops with a jump, that has a target. -/
def Targets.Reached (targets : Targets) : Stop → Prop
  | .jump jump => targets.Reaches jump
  | _ => True

theorem Targets.not_reaches_program (jump : Jump) : ¬ Targets.program.Reaches jump := by
  cases jump with
  | breaks label => cases label <;> simp [Reaches, Breaks, program]
  | continues label => cases label <;> simp [Reaches, Continues, program]
  | returns value => simp [Reaches, program]

variable [Watch] {frames later : Frames Value}

theorem Targeted.left {one other : Prop} (targeted : Targeted (one ∧ other)) :
    Targeted one := fun watched => (targeted watched).1

theorem Targeted.right {one other : Prop} (targeted : Targeted (one ∧ other)) :
    Targeted other := fun watched => (targeted watched).2

namespace Served

variable {frame : FrameId} {names fewer : List String} {name : String}

theorem mono (served : Served frames frame names) (grows : frames.Grows later) :
    Served later frame names :=
  fun watched name member => (served watched name member).mono grows

theorem sub (served : Served frames frame names) (subset : fewer ⊆ names) :
    Served frames frame fewer :=
  fun watched name member => served watched name (List.cons_subset_cons _ subset member)

theorem left {more : List String} (served : Served frames frame (names ++ more)) :
    Served frames frame names := served.sub (List.subset_append_left _ _)

theorem right {more : List String} (served : Served frames frame (more ++ names)) :
    Served frames frame names := served.sub (List.subset_append_right _ _)

theorem this (served : Served frames frame names) : Served frames frame [] :=
  served.sub (List.nil_subset _)

theorem cons (served : Served frames frame names)
    (bound : Watch.names → frames.Binds frame name) : Served frames frame (name :: names) := by
  intro watched other member
  simp only [List.mem_cons] at member
  obtain rfl | rfl | old := member
  · exact served watched "this" List.mem_cons_self
  · exact bound watched
  · exact served watched other (List.mem_cons_of_mem _ old)

end Served

theorem Value.Sound.mono {value : Value} (sound : value.Sound frames)
    (grows : frames.Grows later) : value.Sound later := by
  induction value with
  | function stamp closure => exact ⟨sound.1, sound.2.mono grows⟩
  | functionMethod stamp method target targetIH => exact targetIH sound
  | _ => trivial

theorem Stop.Sound.mono {stop : Stop} (sound : stop.Sound frames)
    (grows : frames.Grows later) : stop.Sound later := by
  cases stop with
  | jump jump =>
      cases jump with
      | returns value => exact Value.Sound.mono sound grows
      | _ => trivial
  | throws value text => exact Value.Sound.mono sound grows
  | _ => trivial

namespace ValuesSound

variable {values others : List Value}

theorem mono (sound : ValuesSound frames values) (grows : frames.Grows later) :
    ValuesSound later values :=
  fun value member => (sound value member).mono grows

theorem nil : ValuesSound frames [] := fun _ member => absurd member List.not_mem_nil

theorem cons {value : Value} (first : value.Sound frames)
    (rest : ValuesSound frames values) : ValuesSound frames (value :: values) :=
  List.forall_mem_cons.mpr ⟨first, rest⟩

theorem append (left : ValuesSound frames values) (right : ValuesSound frames others) :
    ValuesSound frames (values ++ others) :=
  List.forall_mem_append.mpr ⟨left, right⟩

theorem headD (sound : ValuesSound frames values) :
    (values.headD .undefined).Sound frames := by
  cases values with
  | nil => trivial
  | cons first rest => exact sound first List.mem_cons_self

theorem tail (sound : ValuesSound frames values) : ValuesSound frames values.tail :=
  fun value member => sound value (List.mem_of_mem_tail member)

theorem getD (sound : ValuesSound frames values) (index : Nat) :
    ((values[index]?).getD .undefined).Sound frames := by
  cases found : values[index]? with
  | none => trivial
  | some value => exact sound value (List.mem_of_getElem? found)

theorem getLastD (sound : ValuesSound frames values) :
    (values.getLastD .undefined).Sound frames := by
  rw [List.getLastD_eq_getLast?, List.getLast?_eq_getElem?]
  exact sound.getD _

end ValuesSound

/-! ## Results -/

/-- What is asked of a result, given the frames at the time. -/
abbrev Post (α : Type) : Type := Frames Value → α → Prop

section Posts

variable {α : Type}

/-- Nothing is asked of a result. -/
def AnyEnd : Post α := fun _ _ => True

def Each (post : Post α) : Post (List α) := fun frames items => ∀ item ∈ items, post frames item

def Maybe (post : Post α) : Post (Option α) := fun frames item => ∀ value ∈ item, post frames value

/-- What holds of a result goes on to hold while frames grow. -/
class Lasting (post : Post α) : Prop where
  mono : ∀ {frames later : Frames Value} {value : α}, post frames value → frames.Grows later →
    post later value

instance : Lasting (AnyEnd : Post α) := ⟨fun _ _ => trivial⟩

instance : Lasting Value.Sound := ⟨Value.Sound.mono⟩

instance : Lasting ValuesSound := ⟨ValuesSound.mono⟩

instance {names : List String} : Lasting (Served · · names) := ⟨Served.mono⟩

instance {post : Post α} [Lasting post] : Lasting (Each post) :=
  ⟨fun all grows item member => Lasting.mono (all item member) grows⟩

instance {post : Post α} [Lasting post] : Lasting (Maybe post) :=
  ⟨fun all grows item member => Lasting.mono (all item member) grows⟩

end Posts

/-- An end of a computation that starts with the given frames: these have grown, the machine is sound,
and so is the result or the reason to stop. -/
def Outcome.Sound {α : Type} [Watch] (frames : Frames Value) (targets : Targets)
    (post : Post α) : Outcome α → Prop
  | .done value machine => frames.Grows machine.frames ∧ machine.Sound ∧ post machine.frames value
  | .stopped stop machine =>
    frames.Grows machine.frames ∧ machine.Sound ∧ stop.Sound machine.frames ∧
      Targeted (targets.Reached stop)

theorem Outcome.Sound.earlier {α : Type} {targets : Targets} {post : Post α} {outcome : Outcome α}
    (sound : outcome.Sound later targets post) (grows : frames.Grows later) :
    outcome.Sound frames targets post := by
  cases outcome with
  | done value machine => exact ⟨grows.trans sound.1, sound.2⟩
  | stopped stop machine => exact ⟨grows.trans sound.1, sound.2⟩

theorem Outcome.Sound.machine {α : Type} {targets : Targets} {post : Post α} {outcome : Outcome α}
    (sound : outcome.Sound frames targets post) :
    frames.Grows outcome.machine.frames ∧ outcome.machine.Sound := by
  cases outcome with
  | done value machine => exact ⟨sound.1, sound.2.1⟩
  | stopped stop machine => exact ⟨sound.1, sound.2.1⟩

theorem Outcome.Sound.imp {α : Type} {inner targets : Targets} {post post' : Post α}
    {outcome : Outcome α} (sound : outcome.Sound frames inner post)
    (results : ∀ {later : Frames Value} value, frames.Grows later → post later value →
      post' later value)
    (stops : ∀ stop, Targeted (inner.Reached stop) → Targeted (targets.Reached stop)) :
    outcome.Sound frames targets post' := by
  cases outcome with
  | done value machine => exact ⟨sound.1, sound.2.1, results value sound.1 sound.2.2⟩
  | stopped stop machine => exact ⟨sound.1, sound.2.1, sound.2.2.1, stops stop sound.2.2.2⟩

/-- Once there are the given frames, two computations end alike and soundly. -/
def Exec.Agree {α : Type} [Watch] (frames : Frames Value) (targets : Targets)
    (post : Post α) (first second : Exec α) : Prop :=
  ∀ machine : Machine, frames.Grows machine.frames → machine.Sound →
    first machine = second machine ∧ (first machine).Sound machine.frames targets post

/-- Once there are the given frames, a computation ends soundly. -/
abbrev Exec.Safe {α : Type} [Watch] (frames : Frames Value) (targets : Targets)
    (post : Post α) (exec : Exec α) : Prop :=
  Agree frames targets post exec exec

/-! ## How computations are put together -/

namespace Exec.Agree

variable {α β σ : Type} {targets : Targets} {post : Post α} {last : Post β}
variable {second first : Exec α}

theorem pure [Lasting post] {value : α} (good : post frames value) :
    Safe frames targets post (Pure.pure value) :=
  fun _ grows sound => ⟨rfl, .refl _, sound, Lasting.mono good grows⟩

theorem bind {next next' : α → Exec β} (agree : Agree frames targets post first second)
    (rest : ∀ {later : Frames Value}, frames.Grows later → ∀ value, post later value →
      Agree later targets last (next value) (next' value)) :
    Agree frames targets last (first >>= next) (second >>= next') := by
  intro machine grows sound
  obtain ⟨same, ended⟩ := agree machine grows sound
  show Exec.bind first next machine = Exec.bind second next' machine ∧
    (Exec.bind first next machine).Sound machine.frames targets last
  unfold Exec.bind
  rw [← same]
  cases ends : first machine with
  | done value after =>
      rw [ends] at ended
      obtain ⟨grown, afterSound, good⟩ := ended
      obtain ⟨sameRest, endedRest⟩ :=
        rest (grows.trans grown) value good after (.refl _) afterSound
      exact ⟨sameRest, endedRest.earlier grown⟩
  | stopped stop after =>
      rw [ends] at ended
      exact ⟨rfl, ended⟩

theorem weaken {post' : Post α} (agree : Agree frames targets post first second)
    (implies : ∀ {later : Frames Value}, frames.Grows later → ∀ value, post later value →
      post' later value) :
    Agree frames targets post' first second := by
  intro machine grows sound
  obtain ⟨same, ended⟩ := agree machine grows sound
  exact ⟨same, ended.imp (fun value grown => implies (grows.trans grown) value) fun _ => id⟩

/-- A computation without jumps may stand anywhere. -/
theorem widen (agree : Agree frames .program post first second) :
    Agree frames targets post first second := by
  intro machine grows sound
  obtain ⟨same, ended⟩ := agree machine grows sound
  refine ⟨same, ended.imp (fun _ _ => id) fun stop reached watched => ?_⟩
  cases stop with
  | jump jump => exact absurd (reached watched) (Targets.not_reaches_program jump)
  | _ => trivial

theorem stop {reason : Stop} (sound : reason.Sound frames)
    (reached : Targeted (targets.Reached reason)) :
    Safe frames targets post (Exec.stop reason) :=
  fun _ grows machineSound =>
    ⟨rfl, .refl _, machineSound, sound.mono grows, reached⟩

theorem read {view : Machine → α}
    (good : ∀ machine : Machine, frames.Grows machine.frames → machine.Sound →
      post machine.frames (view machine)) :
    Safe frames targets post (Exec.read view) :=
  fun machine grows sound => ⟨rfl, .refl _, sound, good machine grows sound⟩

theorem modify {change : Machine → Machine} {post : Post Unit}
    (keeps : ∀ machine : Machine, frames.Grows machine.frames → machine.Sound →
      machine.frames.Grows (change machine).frames ∧ (change machine).Sound ∧
        post (change machine).frames ()) :
    Safe frames targets post (Exec.modify change) :=
  fun machine grows sound => ⟨rfl, keeps machine grows sound⟩

theorem update {change : Machine → Machine × α}
    (keeps : ∀ machine : Machine, frames.Grows machine.frames → machine.Sound →
      machine.frames.Grows (change machine).1.frames ∧ (change machine).1.Sound ∧
        post (change machine).1.frames (change machine).2) :
    Safe frames targets post (Exec.update change) :=
  fun machine grows sound => ⟨rfl, keeps machine grows sound⟩

theorem throwText (text : String) : Safe frames targets post (Exec.throwText text) :=
  stop trivial fun _ => trivial

theorem ofFault [Lasting post] {result : Except Fault α}
    (good : ∀ value, result = .ok value → post frames value) :
    Safe frames targets post (Exec.ofFault result) := by
  cases result with
  | ok value => exact pure (good value rfl)
  | error fault => exact stop trivial fun _ => trivial

theorem ofNumber (result : Except NumberFault α) :
    Safe frames targets AnyEnd (Exec.ofNumber result) := by
  cases result with
  | ok value => exact pure trivial
  | error fault => exact stop trivial fun _ => trivial

/-! ## Catching -/

theorem catchThrow {handler handler' : Value → Exec α}
    (agree : Agree frames targets post first second)
    (handles : ∀ {later : Frames Value}, frames.Grows later → ∀ value : Value,
      value.Sound later → Agree later targets post (handler value) (handler' value)) :
    Agree frames targets post (Exec.catchThrow first handler)
      (Exec.catchThrow second handler') := by
  intro machine grows sound
  obtain ⟨same, ended⟩ := agree machine grows sound
  unfold Exec.catchThrow
  rw [← same]
  cases ends : first machine with
  | done value after =>
      rw [ends] at ended
      exact ⟨rfl, ended⟩
  | stopped stop after =>
      rw [ends] at ended
      cases stop with
      | throws value text =>
          obtain ⟨grown, afterSound, good, -⟩ := ended
          obtain ⟨sameEnd, endedLast⟩ :=
            handles (grows.trans grown) value good after (.refl _) afterSound
          exact ⟨sameEnd, endedLast.earlier grown⟩
      | _ => exact ⟨rfl, ended⟩

theorem andFinally {first second final final' : Exec Unit}
    (agree : Agree frames targets AnyEnd first second)
    (finishes : Agree frames targets AnyEnd final final') :
    Agree frames targets AnyEnd (Exec.andFinally first final) (Exec.andFinally second final') := by
  intro machine grows sound
  obtain ⟨same, ended⟩ := agree machine grows sound
  unfold Exec.andFinally
  rw [← same]
  cases ends : first machine with
  | done value after =>
      rw [ends] at ended
      obtain ⟨grown, afterSound, -⟩ := ended
      obtain ⟨sameEnd, endedLast⟩ := finishes after (grows.trans grown) afterSound
      exact ⟨sameEnd, endedLast.earlier grown⟩
  | stopped stop after =>
      rw [ends] at ended
      obtain ⟨grown, afterSound, stopSound, reached⟩ := ended
      obtain ⟨sameEnd, endedLast⟩ := finishes after (grows.trans grown) afterSound
      cases stop with
      | exhausted => exact ⟨rfl, grown, afterSound, stopSound, reached⟩
      | _ =>
          -- However the body stops, the finalizer runs: its own stop wins over the one of the body.
          simp only [← sameEnd, true_and]
          cases finished : final after with
          | done value done =>
              rw [finished] at endedLast
              obtain ⟨grownLast, doneSound, -⟩ := endedLast
              exact ⟨grown.trans grownLast, doneSound, Stop.Sound.mono stopSound grownLast, reached⟩
          | stopped stop done =>
              rw [finished] at endedLast
              exact endedLast.earlier grown

/-- The body of a function has no jumps to leave with but `return`. -/
theorem catchReturn {first second : Exec Unit}
    (agree : Agree frames .function AnyEnd first second) :
    Agree frames targets Value.Sound (Exec.catchReturn first) (Exec.catchReturn second) := by
  intro machine grows sound
  obtain ⟨same, ended⟩ := agree machine grows sound
  unfold Exec.catchReturn
  rw [← same]
  refine ⟨rfl, ?_⟩
  cases ends : first machine with
  | done value after =>
      rw [ends] at ended
      exact ⟨ended.1, ended.2.1, trivial⟩
  | stopped stop after =>
      rw [ends] at ended
      obtain ⟨grown, afterSound, stopSound, reached⟩ := ended
      cases stop with
      | jump jump =>
          cases jump with
          | returns value => exact ⟨grown, afterSound, stopSound⟩
          | breaks label =>
              refine ⟨grown, afterSound, trivial, fun watched => ?_⟩
              have impossible := reached watched
              cases label <;>
                simp [Targets.Reached, Targets.Reaches, Targets.Breaks, Targets.function] at impossible
          | continues label =>
              refine ⟨grown, afterSound, trivial, fun watched => ?_⟩
              have impossible := reached watched
              cases label <;>
                simp [Targets.Reached, Targets.Reaches, Targets.Continues, Targets.function]
                  at impossible
      | _ => exact ⟨grown, afterSound, stopSound, reached⟩

theorem catchBreak {inner : Targets} {label : Option String} {first second : Exec Unit}
    (agree : Agree frames inner AnyEnd first second)
    (leaves : ∀ jump : Jump, inner.Reaches jump → jump = .breaks label ∨ targets.Reaches jump) :
    Agree frames targets AnyEnd (Exec.catchBreak label first) (Exec.catchBreak label second) := by
  intro machine grows sound
  obtain ⟨same, ended⟩ := agree machine grows sound
  unfold Exec.catchBreak
  rw [← same]
  refine ⟨rfl, ?_⟩
  cases ends : first machine with
  | done value after =>
      rw [ends] at ended
      exact ended
  | stopped stop after =>
      rw [ends] at ended
      obtain ⟨grown, afterSound, stopSound, reached⟩ := ended
      have leaving (jump : Jump) (other : jump ≠ .breaks label)
          (reached : Targeted (inner.Reaches jump)) : Targeted (targets.Reaches jump) :=
        fun watched => (leaves jump (reached watched)).resolve_left other
      cases stop with
      | jump jump =>
          cases jump with
          | breaks target =>
              dsimp only
              split
              · exact ⟨grown, afterSound, trivial⟩
              · rename_i different
                exact ⟨grown, afterSound, stopSound,
                  leaving _ (fun same => different (Jump.breaks.inj same)) reached⟩
          | continues target =>
              exact ⟨grown, afterSound, stopSound, leaving (.continues target) (by simp) reached⟩
          | returns value =>
              exact ⟨grown, afterSound, stopSound, leaving (.returns value) (by simp) reached⟩
      | _ => exact ⟨grown, afterSound, stopSound, reached⟩

/-- What leaves one iteration of a loop has its target around the loop. -/
theorem iteration {own : List String} {first second : Exec Unit}
    (agree : Agree frames (targets.loop own) AnyEnd first second) :
    Agree frames targets AnyEnd (Exec.iteration own first) (Exec.iteration own second) := by
  intro machine grows sound
  obtain ⟨same, ended⟩ := agree machine grows sound
  unfold Exec.iteration
  rw [← same]
  refine ⟨rfl, ?_⟩
  cases ends : first machine with
  | done value after =>
      rw [ends] at ended
      exact ⟨ended.1, ended.2.1, trivial⟩
  | stopped stop after =>
      rw [ends] at ended
      obtain ⟨grown, afterSound, stopSound, reached⟩ := ended
      cases stop with
      | jump jump =>
          cases jump with
          | breaks label =>
              dsimp only
              split
              · exact ⟨grown, afterSound, trivial⟩
              · rename_i outside
                cases label with
                | none => exact absurd rfl outside
                | some name => exact ⟨grown, afterSound, stopSound, reached⟩
          | continues label =>
              dsimp only
              split
              · exact ⟨grown, afterSound, trivial⟩
              · rename_i outside
                cases label with
                | none => exact absurd rfl outside
                | some name =>
                    refine ⟨grown, afterSound, stopSound, fun watched => ?_⟩
                    obtain inOwn | around := List.mem_append.mp (reached watched)
                    · exact absurd (List.contains_iff_mem.mpr inOwn) outside
                    · exact around
          | returns value => exact ⟨grown, afterSound, stopSound, reached⟩
      | _ => exact ⟨grown, afterSound, stopSound, reached⟩

/-! ## Repetition -/

theorem iterate (states : Post σ) [Lasting states] {step step' : σ → Exec (Option σ)}
    (steps : ∀ {later : Frames Value}, frames.Grows later → ∀ state, states later state →
      Agree later targets (Maybe states) (step state) (step' state))
    (fuel : Nat) {state : σ} (start : states frames state) :
    Agree frames targets AnyEnd (Exec.iterate fuel step state) (Exec.iterate fuel step' state) := by
  unfold Exec.iterate
  induction fuel generalizing frames state with
  | zero =>
      exact fun machine grows sound =>
        ⟨rfl, .refl _, sound, trivial, fun _ => trivial⟩
  | succ fuel ih =>
      intro machine grows sound
      obtain ⟨same, ended⟩ :=
        steps grows state (Lasting.mono start grows) machine (.refl _) sound
      unfold Exec.repeatStep
      rw [← same]
      cases ends : step state machine with
      | done next after =>
          rw [ends] at ended
          obtain ⟨grown, afterSound, good⟩ := ended
          cases next with
          | none => exact ⟨rfl, grown, afterSound, trivial⟩
          | some state =>
              have onward := grows.trans grown
              obtain ⟨sameRest, endedRest⟩ := ih (fun further => steps (onward.trans further))
                (good state rfl) after (.refl _) afterSound
              exact ⟨sameRest, endedRest.earlier grown⟩
      | stopped stop after =>
          rw [ends] at ended
          exact ⟨rfl, ended⟩

theorem mapItems [Lasting last] {action action' : Nat → α → Exec β} {items : List α}
    (actions : ∀ {later : Frames Value}, frames.Grows later → ∀ index, ∀ item ∈ items,
      Agree later targets last (action index item) (action' index item)) (index : Nat) :
    Agree frames targets (Each last) (Exec.mapItems action index items)
      (Exec.mapItems action' index items) := by
  induction items generalizing frames index with
  | nil => exact pure fun _ member => absurd member List.not_mem_nil
  | cons item rest ih =>
      refine (actions (.refl _) index item List.mem_cons_self).bind
        fun grows result good => ?_
      have others := ih (fun further index item member =>
        actions (grows.trans further) index item (List.mem_cons_of_mem _ member)) (index + 1)
      exact others.bind fun further results allGood =>
        pure (List.forall_mem_cons.mpr ⟨Lasting.mono good further, allGood⟩)

end Exec.Agree

end LoopCapture
