import LoopCapture.Machine.Activity
import LoopCapture.Machine.Member
import LoopCapture.Machine.Operator

/-!
Evaluation of expressions.
-/

set_option autoImplicit false

namespace LoopCapture.Exec

def applyBinary (op : BinaryOp) (left right : Value) : Exec Value := do
  ofFault (← read fun machine => Value.binary machine.arrays op left right)

/-! ## Places -/

def evalPlace (perform : Performer) (frame : FrameId) : Place → Exec Value
  | .ident x => getVariable frame x.name
  | .member _ object property => do
    getMember (← perform.eval object frame) (.text property.name)
  | .index _ object key => do
    let base ← perform.eval object frame
    getMember base (← perform.eval key frame)

def assign (perform : Performer) (frame : FrameId) (value : Value) : Place → Exec Unit
  | .ident x => setVariable frame x.name value
  | .member _ object property => do
    setMember (← perform.eval object frame) (.text property.name) value
  | .index _ object key => do
    let base ← perform.eval object frame
    setMember base (← perform.eval key frame) value

/-- The value that an assignment assigns. A combined one reads the place first. -/
def assignedValue (perform : Performer) (frame : FrameId) (op : AssignOp) (target : Place)
    (value : Expr) : Exec Value :=
  match op with
  | .plain => perform.eval value frame
  | .combined op => do
    let current ← evalPlace perform frame target
    applyBinary (.arith op) current (← perform.eval value frame)

/-- Increments or decrements a place and yields the number before or after that. -/
def evalUpdate (perform : Performer) (frame : FrameId) (op : UpdateOp) (before : Bool)
    (target : Place) : Exec Value := do
  let old := (← evalPlace perform frame target).toNumber
  let new ← ofNumber (match op with
    | .increment => old.add (.int 1)
    | .decrement => old.sub (.int 1))
  assign perform frame (.number new) target
  return .number (if before then new else old)

/-! ## Calls -/

/-- The function that a call calls, and its `this`. -/
def evalCallee (perform : Performer) (frame : FrameId) : Expr → Exec (Value × Value)
  | .place (.member _ object property) => do
    let this ← perform.eval object frame
    return (← getMember this (.text property.name), this)
  | .place (.index _ object key) => do
    let this ← perform.eval object frame
    return (← getMember this (← perform.eval key frame), this)
  | callee => do return (← perform.eval callee frame, .undefined)

/-! ## Operators -/

/-- Whether an expression is a name without a variable. -/
def isUnbound (frame : FrameId) : Expr → Exec Bool
  | .place (.ident x) => read fun machine => (machine.frames.find? frame x.name).isNone
  | _ => return false

/-- The name of the type of an operand; a name without a variable is undefined. -/
def evalTypeOf (perform : Performer) (frame : FrameId) (operand : Expr) : Exec Value := do
  if ← isUnbound frame operand then return .text "undefined"
  else return .text (← perform.eval operand frame).typeOf

def evalUnary (perform : Performer) (frame : FrameId) (op : UnaryOp) (operand : Expr) :
    Exec Value :=
  match op with
  | .typeof => evalTypeOf perform frame operand
  | .not => do return .bool !(← truthy (← perform.eval operand frame))
  | .negate => do return .number (← perform.eval operand frame).toNumber.neg
  | .plus => do return .number (← perform.eval operand frame).toNumber

def evalLogical (perform : Performer) (frame : FrameId) (op : LogicalOp) (left right : Expr) :
    Exec Value := do
  let value ← perform.eval left frame
  let holds ← truthy value
  match op, holds with
  | .and, true => perform.eval right frame
  | .or, false => perform.eval right frame
  | _, _ => return value

def evalExpr (perform : Performer) (frame : FrameId) : Expr → Exec Value
  | .place p => evalPlace perform frame p
  | .literal _ value _ => return .ofLiteral value
  | .this _ => getVariable frame "this"
  | .array _ items => do newArray (← perform.evalAll items frame).toArray
  | .function _ params body =>
    newFunction ⟨false, params.map Ident.name, .block body, frame⟩
  | .arrow _ params body => newFunction ⟨true, params.map Ident.name, body, frame⟩
  | .call _ callee args => do
    let (function, this) ← evalCallee perform frame callee
    perform.invoke function this (← perform.evalAll args frame)
  | .assign _ op target value => do
    let result ← assignedValue perform frame op target value
    assign perform frame result target
    return result
  | .update _ op before target => evalUpdate perform frame op before target
  | .binary _ op left right => do
    let a ← perform.eval left frame
    applyBinary op a (← perform.eval right frame)
  | .logical _ op left right => evalLogical perform frame op left right
  | .unary _ op operand => evalUnary perform frame op operand
  | .conditional _ test yes no => do
    if ← truthy (← perform.eval test frame) then perform.eval yes frame
    else perform.eval no frame
  | .sequence _ items => do
    return (← perform.evalAll items frame).getLastD .undefined

end LoopCapture.Exec
