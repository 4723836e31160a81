import LoopCapture.Machine.Exec
import LoopCapture.Machine.Hoisting

/-!
What the machine does: it evaluates expressions, executes statements and calls functions.

The rules for each of these refer to the others only through a performer of activities. Closing the
rules is then one recursion on a bound for the depth of activities.
-/

set_option autoImplicit false

namespace LoopCapture

inductive Activity where
  | eval (expr : Expr) (frame : FrameId)
  /-- Execute a statement that has the given labels. -/
  | exec (stmt : Stmt) (frame : FrameId) (labels : List String)
  | invoke (function this : Value) (args : List Value)

abbrev Activity.Result : Activity → Type
  | .eval .. => Value
  | .exec .. => Unit
  | .invoke .. => Value

def Performer : Type := (activity : Activity) → Exec activity.Result

namespace Performer

def eval (perform : Performer) (expr : Expr) (frame : FrameId) : Exec Value :=
  perform (.eval expr frame)

def evalAll (perform : Performer) (exprs : List Expr) (frame : FrameId) : Exec (List Value) :=
  Exec.mapItems (fun _ expr => perform.eval expr frame) 0 exprs

/-- Executes a statement without labels. -/
def exec (perform : Performer) (stmt : Stmt) (frame : FrameId) : Exec Unit :=
  perform (.exec stmt frame [])

def execAll (perform : Performer) (frame : FrameId) : List Stmt → Exec Unit
  | [] => return ()
  | stmt :: rest => do
    perform.exec stmt frame
    perform.execAll frame rest

def invoke (perform : Performer) (function this : Value) (args : List Value) : Exec Value :=
  perform (.invoke function this args)

end Performer

namespace Exec

def declareFunctions (frame : FrameId) : List Stmt → Exec Unit
  | [] => return ()
  | .function _ name params body :: rest => do
    define frame name.name
      (← newFunction ⟨false, params.map Ident.name, .block body, frame⟩)
    declareFunctions frame rest
  | _ :: rest => declareFunctions frame rest

/-- Gives a frame variables for names it does not have yet. -/
def declareNames (frame : FrameId) : List String → Exec Unit
  | [] => return ()
  | name :: rest => do
    if !(← read (·.frames.owns frame name)) then define frame name .undefined
    declareNames frame rest

def execBlock (perform : Performer) (frame : FrameId) (body : List Stmt) : Exec Unit := do
  declareFunctions frame body
  perform.execAll frame body

def execBody (scoping : Scoping) (perform : Performer) (frame : FrameId) (body : List Stmt) :
    Exec Unit := do
  declareNames frame (hoistedNames scoping body)
  execBlock perform frame body

end Exec

end LoopCapture
