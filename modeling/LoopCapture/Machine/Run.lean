import LoopCapture.Machine.Call
import LoopCapture.Machine.Expression
import LoopCapture.Machine.Statement

/-!
Running programs.

A program runs its statements and then, in the order of time, the calls it has put off. Its
functions can be called afterwards.
-/

set_option autoImplicit false

namespace LoopCapture

/-- One round of the rules for all activities. -/
def Performer.step (scoping : Scoping) (fuel : Nat) (perform : Performer) : Performer
  | .eval expr frame => Exec.evalExpr perform frame expr
  | .exec stmt frame labels => Exec.execStmt scoping fuel perform frame labels stmt
  | .invoke function this args => Exec.callValue scoping perform function this args

/-- Carries out activities, nested to at most the given depth and with loops of at most as many
iterations. -/
def perform (scoping : Scoping) : Nat → Performer
  | 0, _ => Exec.stop .exhausted
  | fuel + 1, activity => Performer.step scoping fuel (perform scoping fuel) activity

namespace Machine

/-- The bound on depth and iterations unless another one is given. -/
def ampleFuel : Nat := 1000000000000

def globalFrame : FrameId := 0

def globals : List (String × Value) := [
  ("setTimeout", .native .setTimeout),
  ("String", .native .string),
  ("undefined", .undefined),
  ("NaN", .number .nan),
  ("Infinity", .number .infinity),
  ("this", .undefined),
  ("console", .console 0)]

def initial : Machine where
  frames := ⟨#[⟨none, true, globals⟩]⟩
  arrays := #[]
  stamp := 1
  clock := .start 0
  lines := #[]

end Machine

namespace Exec

def takeTimer : Exec (Option Callback) :=
  update fun machine =>
    match machine.clock.next? with
    | none => (machine, none)
    | some (timer, clock) => ({ machine with clock := clock }, some timer.action)

def runTimers (fuel : Nat) (perform : Performer) : Exec Unit :=
  let step (_ : Unit) : Exec (Option Unit) := do
    match ← takeTimer with
    | none => return none
    | some callback =>
      let _ ← perform.invoke callback.function .undefined callback.args
      return some ()
  iterate fuel step ()

def runProgram (scoping : Scoping) (fuel : Nat) (program : Program) : Exec Unit := do
  execBody scoping (perform scoping fuel) Machine.globalFrame program.body
  runTimers fuel (perform scoping fuel)

def callByName (scoping : Scoping) (fuel : Nat) (name : String) (args : List Value) : Exec Value := do
  let function ← getVariable Machine.globalFrame name
  (perform scoping fuel).invoke function .undefined args

end Exec

def Program.run (scoping : Scoping) (program : Program) : Outcome Unit :=
  Exec.runProgram scoping Machine.ampleFuel program Machine.initial

end LoopCapture
