import LoopCapture.Machine.Exec

/-!
# Running computations

What a sequence does to a machine, given what its first part does.
-/

set_option autoImplicit false

namespace LoopCapture.Exec

variable {α β : Type} {machine after : Machine}

theorem read_bind_run (view : Machine → α) (next : α → Exec β) (machine : Machine) :
    (read view >>= next) machine = next (view machine) machine :=
  rfl

theorem bind_run_done {x : Exec α} {next : α → Exec β} {value : α}
    (done : x machine = .done value after) : (x >>= next) machine = next value after := by
  show Exec.bind x next machine = _
  rw [Exec.bind, done]

theorem bind_run_stopped {x : Exec α} {next : α → Exec β} {reason : Stop}
    (stopped : x machine = .stopped reason after) :
    (x >>= next) machine = .stopped reason after := by
  show Exec.bind x next machine = _
  rw [Exec.bind, stopped]

/-- A sequence depends on its first part through the end of that only. -/
theorem bind_run_congr {x y : Exec α} {next : α → Exec β} {machine' : Machine}
    (same : x machine = y machine') : (x >>= next) machine = (y >>= next) machine' := by
  show Exec.bind x next machine = Exec.bind y next machine'
  rw [Exec.bind, Exec.bind, same]

theorem bind_assoc {γ : Type} (x : Exec α) (f : α → Exec β) (g : β → Exec γ) :
    x >>= f >>= g = x >>= fun value => f value >>= g := by
  funext machine
  cases run : x machine with
  | done value after =>
      rw [bind_run_done run]
      show Exec.bind (x >>= f) g machine = _
      rw [Exec.bind, bind_run_done run]
      rfl
  | stopped reason after =>
      rw [bind_run_stopped run, bind_run_stopped (bind_run_stopped run)]

/-! ## Variables -/

variable {frame owner : FrameId} {name : String}

/-- The end of a computation that needs a variable where there is none. -/
def unbound (name : String) : Stop := .throws (.text (unboundMessage name)) (unboundMessage name)

theorem getVariable_run {value : Value} (found : machine.frames.get? frame name = some value) :
    getVariable frame name machine = .done value machine := by
  simp only [getVariable, read_bind_run, found]
  rfl

theorem getVariable_unbound (missing : machine.frames.get? frame name = none) :
    getVariable frame name machine = .stopped (unbound name) machine := by
  simp only [getVariable, read_bind_run, missing]
  rfl

theorem setVariable_run (found : machine.frames.find? frame name = some owner) (value : Value) :
    setVariable frame name value machine =
      .done () { machine with frames := machine.frames.define owner name value } := by
  simp only [setVariable, read_bind_run, found]
  rfl

theorem setVariable_unbound (missing : machine.frames.find? frame name = none) (value : Value) :
    setVariable frame name value machine = .stopped (unbound name) machine := by
  simp only [setVariable, read_bind_run, missing]
  rfl

theorem copyFrame_run {copied : Frame Value} (found : machine.frames.frame? frame = some copied) :
    copyFrame frame machine = .done machine.frames.all.size
      { machine with frames := (machine.frames.add copied).1 } := by
  simp only [copyFrame, update, Frames.copy, found]
  rfl

end LoopCapture.Exec
