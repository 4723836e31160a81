import LoopCapture.Machine.Clock
import LoopCapture.Machine.Convert

/-!
The machine and its computations.

A computation takes the machine from one state to the next. It ends with a value, or it stops early:
because of a jump of the program, an exception, a fault that the program cannot catch, or because a
bound on the length of the computation has been reached. The machine stays as it was left in all
cases.
-/

set_option autoImplicit false

namespace LoopCapture

structure Callback where
  function : Value
  args : List Value

structure Machine where
  frames : Frames Value
  arrays : Arrays
  /-- The next stamp to hand out. -/
  stamp : Stamp
  clock : Clock Float Callback
  lines : Array String

/-- Statements that leave the statements around them. -/
inductive Jump where
  | breaks (label : Option String)
  | continues (label : Option String)
  | returns (value : Value)

inductive Stop where
  | jump (jump : Jump)
  /-- An exception, with the text of the value at the time it was thrown. -/
  | throws (value : Value) (text : String)
  | fault (fault : Fault)
  /-- The bound on the length of the computation has been reached. -/
  | exhausted

inductive Outcome (α : Type) where
  | done (value : α) (machine : Machine)
  | stopped (stop : Stop) (machine : Machine)

def Outcome.machine {α : Type} : Outcome α → Machine
  | .done _ machine => machine
  | .stopped _ machine => machine

def Exec (α : Type) : Type := Machine → Outcome α

namespace Exec

variable {α β σ : Type}

protected def pure (value : α) : Exec α := fun machine => .done value machine

protected def bind (first : Exec α) (next : α → Exec β) : Exec β := fun machine =>
  match first machine with
  | .done value machine => next value machine
  | .stopped stop machine => .stopped stop machine

instance : Monad Exec where
  pure := Exec.pure
  bind := Exec.bind

instance : Inhabited (Exec α) := ⟨fun machine => .stopped .exhausted machine⟩

def stop (stop : Stop) : Exec α := fun machine => .stopped stop machine

def read (view : Machine → α) : Exec α := fun machine => .done (view machine) machine

def modify (change : Machine → Machine) : Exec Unit := fun machine => .done () (change machine)

def update (change : Machine → Machine × α) : Exec α := fun machine =>
  let (machine, value) := change machine
  .done value machine

def throwText (text : String) : Exec α := stop (.throws (.text text) text)

def ofFault : Except Fault α → Exec α
  | .ok value => Exec.pure value
  | .error fault => stop (.fault fault)

def ofNumber : Except NumberFault α → Exec α
  | .ok value => Exec.pure value
  | .error fault => stop (.fault (.number fault))

/-! ## Catching -/

def catchThrow (body : Exec α) (handler : Value → Exec α) : Exec α := fun machine =>
  match body machine with
  | .stopped (.throws value _) machine => handler value machine
  | outcome => outcome

/-- Runs a computation after another one however that ends. If the second one stops early, that is
how both end. -/
def andFinally (body finalizer : Exec Unit) : Exec Unit := fun machine =>
  match body machine with
  | .done _ machine => finalizer machine
  | .stopped .exhausted machine => .stopped .exhausted machine
  | .stopped stop machine =>
    match finalizer machine with
    | .done _ machine => .stopped stop machine
    | outcome => outcome

/-- Takes the value of a `return`, or `undefined` without one. -/
def catchReturn (body : Exec Unit) : Exec Value := fun machine =>
  match body machine with
  | .done _ machine => .done .undefined machine
  | .stopped (.jump (.returns value)) machine => .done value machine
  | .stopped stop machine => .stopped stop machine

/-- Ends a computation normally at a `break` with the given label or lack of one. -/
def catchBreak (label : Option String) (body : Exec Unit) : Exec Unit := fun machine =>
  match body machine with
  | .stopped (.jump (.breaks target)) machine =>
    if target = label then .done () machine else .stopped (.jump (.breaks target)) machine
  | outcome => outcome

/-- Whether a jump with the given label, or none, concerns a loop with the given labels. -/
def concerns (labels : List String) (label : Option String) : Bool :=
  label.all labels.contains

/-- Runs the body of a loop with the given labels once; the answer is whether the loop goes on. -/
def iteration (labels : List String) (body : Exec Unit) : Exec Bool := fun machine =>
  match body machine with
  | .done _ machine => .done true machine
  | .stopped (.jump (.breaks label)) machine =>
    if concerns labels label then .done false machine
    else .stopped (.jump (.breaks label)) machine
  | .stopped (.jump (.continues label)) machine =>
    if concerns labels label then .done true machine
    else .stopped (.jump (.continues label)) machine
  | .stopped stop machine => .stopped stop machine

/-! ## Repetition -/

/-- Repeats a step as long as it yields a state for the next one, at most the given number of
times. -/
def repeatStep (step : σ → Exec (Option σ)) : Nat → σ → Machine → Outcome Unit
  | 0, _, machine => .stopped .exhausted machine
  | fuel + 1, state, machine =>
    match step state machine with
    | .done (some state) machine => repeatStep step fuel state machine
    | .done none machine => .done () machine
    | .stopped stop machine => .stopped stop machine

def iterate (fuel : Nat) (step : σ → Exec (Option σ)) (state : σ) : Exec Unit :=
  repeatStep step fuel state

/-- Does something with each item of a list and its position, in order, and collects the
results. -/
def mapItems (action : Nat → α → Exec β) : Nat → List α → Exec (List β)
  | _, [] => Exec.pure []
  | index, item :: rest => do
    let result ← action index item
    let results ← mapItems action (index + 1) rest
    return result :: results

/-! ## Variables, arrays and the console -/

def newFrame (parent : FrameId) (isFunction : Bool) : Exec FrameId :=
  update fun machine =>
    let (frames, id) := machine.frames.new (some parent) isFunction
    ({ machine with frames := frames }, id)

def copyFrame (frame : FrameId) : Exec FrameId :=
  update fun machine =>
    let (frames, id) := machine.frames.copy frame
    ({ machine with frames := frames }, id)

def define (frame : FrameId) (name : String) (value : Value) : Exec Unit :=
  modify fun machine => { machine with frames := machine.frames.define frame name value }

def getVariable (frame : FrameId) (name : String) : Exec Value := do
  match ← read (·.frames.get? frame name) with
  | some value => return value
  | none => throwText (unboundMessage name)

/-- Assigns to a variable, which must exist. -/
def setVariable (frame : FrameId) (name : String) (value : Value) : Exec Unit := do
  match ← read (·.frames.find? frame name) with
  | some owner => define owner name value
  | none => throwText (unboundMessage name)

def newArray (items : Array Value) : Exec Value :=
  update fun machine =>
    let id := machine.arrays.size
    ({ machine with arrays := machine.arrays.push items }, .array id)

def getItems (array : ArrayId) : Exec (Array Value) :=
  read fun machine => (machine.arrays[array]?).getD #[]

def modifyItems (array : ArrayId) (change : Array Value → Array Value) : Exec Unit :=
  modify fun machine => { machine with arrays := machine.arrays.modify array change }

/-- A stamp that no value has yet. -/
def newStamp : Exec Stamp :=
  update fun machine => ({ machine with stamp := machine.stamp + 1 }, machine.stamp)

def newFunction (closure : Closure) : Exec Value := do
  return .function (← newStamp) closure

def writeLine (line : String) : Exec Unit :=
  modify fun machine => { machine with lines := machine.lines.push line }

def display (value : Value) : Exec String := do
  ofFault (← read fun machine => value.display machine.arrays)

def truthy (value : Value) : Exec Bool := ofNumber value.truthy

def throwValue (value : Value) : Exec Unit := do
  stop (.throws value (← display value))

end Exec

end LoopCapture
