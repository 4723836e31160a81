import LoopCapture.Machine.Run

/-!
# Rules with other ways of access

A declaration assigns to a variable of its own name, and `this` is looked up like a variable. The
rules below leave open how that is done, and are the rules of the machine in all other respects. Of
interest are ways of access that raise an alarm where there is no variable.
-/

set_option autoImplicit false

namespace LoopCapture

/-- How declarations assign to their variables, and how `this` is read. -/
structure Access where
  assign : FrameId → String → Value → Exec Unit
  this : FrameId → Exec Value

/-- Raises an alarm if there is no variable for a computation, or if it does not end with a result. -/
def Exec.guarded {α : Type} (frame : FrameId) (name : String) (alarm exec : Exec α) : Exec α :=
  fun machine =>
    if (machine.frames.find? frame name).isSome then
      match exec machine with
      | .done value machine => .done value machine
      | .stopped _ _ => alarm machine
    else alarm machine

namespace Access

/-- The ways of the machine. -/
def plain : Access := ⟨Exec.setVariable, fun frame => Exec.getVariable frame "this"⟩

/-- The ways of the machine, but with alarms where there is no variable, or where it is of no help. -/
def alarmed (unassigned : String → Exec Unit) (noThis : Exec Value) : Access where
  assign frame name value :=
    Exec.guarded frame name (unassigned name) (Exec.setVariable frame name value)
  this frame := Exec.guarded frame "this" noThis (Exec.getVariable frame "this")

end Access

namespace Exec

variable (access : Access)

def declareOneBy (inBlock : Bool) (perform : Performer) (frame : FrameId)
    (declarator : Declarator) : Exec Unit :=
  match inBlock, declarator.init with
  | false, some init => do access.assign frame declarator.ident.name (← perform.eval init frame)
  | _, _ => declareOne inBlock perform frame declarator

def declareAllBy (inBlock : Bool) (perform : Performer) (frame : FrameId) :
    List Declarator → Exec Unit
  | [] => return ()
  | declarator :: rest => do
    declareOneBy access inBlock perform frame declarator
    declareAllBy inBlock perform frame rest

def declareBy (scoping : Scoping) (perform : Performer) (frame : FrameId)
    (declaration : Declaration) : Exec Unit :=
  declareAllBy access (scoping.inBlock declaration.kind) perform frame declaration.declarators

def execInitBy (scoping : Scoping) (perform : Performer) (frame : FrameId) :
    Option ForInit → Exec Unit
  | some (.declaration declaration) => declareBy access scoping perform frame declaration
  | init => execInit scoping perform frame init

def execForBy (scoping : Scoping) (fuel : Nat) (perform : Performer) (frame : FrameId)
    (labels : List String) (init : Option ForInit) (test change : Option Expr) (body : Stmt) :
    Exec Unit := do
  let copies := copiesHeader scoping init
  let header ← headerFrame copies frame
  execInitBy access scoping perform header init
  let step (current : FrameId) : Exec (Option FrameId) := do
    if ← goesOn perform current test then
      if ← iteration labels (perform.exec body current) then
        let next ← nextFrame copies current
        evalOption perform next change
        return some next
      else return none
    else return none
  iterate fuel step (← nextFrame copies header)

def bindItemBy (scoping : Scoping) (frame : FrameId) (value : Value) : ForTarget → Exec FrameId
  | .declared loc kind ident =>
    if scoping.inBlock kind then bindItem scoping frame value (.declared loc kind ident)
    else do
      access.assign frame ident.name value
      return frame
  | target => bindItem scoping frame value target

def execForEachBy (scoping : Scoping) (fuel : Nat) (perform : Performer) (frame : FrameId)
    (labels : List String) (kind : EachKind) (target : ForTarget) (subject : Expr) (body : Stmt) :
    Exec Unit := do
  let collection ← collectionOf kind (← perform.eval subject frame)
  let step (index : Nat) : Exec (Option Nat) := do
    match ← itemAt kind collection index with
    | none => return none
    | some value =>
      let inner ← bindItemBy access scoping frame value target
      return if ← iteration labels (perform.exec body inner) then some (index + 1) else none
  iterate fuel step 0

def execStmtBy (scoping : Scoping) (fuel : Nat) (perform : Performer) (frame : FrameId)
    (labels : List String) : Stmt → Exec Unit
  | .declaration d => declareBy access scoping perform frame d
  | .forLoop _ init test change body =>
    execForBy access scoping fuel perform frame labels init test change body
  | .forEach _ kind target subject body =>
    execForEachBy access scoping fuel perform frame labels kind target subject body
  | stmt => execStmt scoping fuel perform frame labels stmt

def evalExprBy (perform : Performer) (frame : FrameId) : Expr → Exec Value
  | .this _ => access.this frame
  | expr => evalExpr perform frame expr

end Exec

def Performer.stepBy (access : Access) (scoping : Scoping) (fuel : Nat) (perform : Performer) :
    Performer
  | .eval expr frame => Exec.evalExprBy access perform frame expr
  | .exec stmt frame labels => Exec.execStmtBy access scoping fuel perform frame labels stmt
  | .invoke function this args => Exec.callValue scoping perform function this args

/-- Carries out activities with the given ways of access at any depth. -/
def performBy (access : Access) (scoping : Scoping) : Nat → Performer
  | 0, _ => Exec.stop .exhausted
  | fuel + 1, activity => (performBy access scoping fuel).stepBy access scoping fuel activity

/-! ## The ways of the machine -/

namespace Exec

variable {perform : Performer} {frame : FrameId} {scoping : Scoping}

theorem declareAllBy_plain {inBlock : Bool} (declarators : List Declarator) :
    declareAllBy .plain inBlock perform frame declarators =
      declareAll inBlock perform frame declarators := by
  induction declarators with
  | nil => rfl
  | cons first rest restIH =>
      obtain ⟨loc, ident, init⟩ := first
      have one : declareOneBy .plain inBlock perform frame (.mk loc ident init) =
          declareOne inBlock perform frame (.mk loc ident init) := by
        cases inBlock <;> cases init <;> rfl
      rw [declareAllBy, declareAll, one, restIH]

theorem execInitBy_plain (init : Option ForInit) :
    execInitBy .plain scoping perform frame init = execInit scoping perform frame init := by
  match init with
  | none => rfl
  | some (.expr value) => rfl
  | some (.declaration declaration) => exact declareAllBy_plain _

theorem bindItemBy_plain (value : Value) (target : ForTarget) :
    bindItemBy .plain scoping frame value target = bindItem scoping frame value target := by
  cases target with
  | existing ident => rfl
  | declared loc kind ident =>
      cases inBlock : scoping.inBlock kind <;> simp [bindItemBy, bindItem, inBlock, Access.plain]

end Exec

theorem Performer.stepBy_plain (scoping : Scoping) (fuel : Nat) (perform : Performer) :
    perform.stepBy .plain scoping fuel = perform.step scoping fuel := by
  funext activity
  cases activity with
  | invoke function this args => rfl
  | eval expr frame => cases expr <;> rfl
  | exec stmt frame labels =>
      cases stmt with
      | declaration declaration => exact Exec.declareAllBy_plain _
      | forLoop loc init test change body =>
          simp only [stepBy, Exec.execStmtBy, Exec.execForBy, Exec.execInitBy_plain]
          rfl
      | forEach loc kind target subject body =>
          simp only [stepBy, Exec.execStmtBy, Exec.execForEachBy, Exec.bindItemBy_plain]
          rfl
      | _ => rfl

theorem performBy_plain (scoping : Scoping) (fuel : Nat) :
    performBy .plain scoping fuel = perform scoping fuel := by
  induction fuel with
  | zero => rfl
  | succ fuel ih =>
      funext activity
      simp only [performBy, perform, ih, Performer.stepBy_plain]

end LoopCapture
