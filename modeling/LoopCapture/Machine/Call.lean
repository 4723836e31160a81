import LoopCapture.Machine.Activity

/-!
Calls of functions.
-/

set_option autoImplicit false

namespace LoopCapture.Exec

/-! ## Native functions -/

/-- The delay that a value stands for; NaN is no delay. -/
def delayOf (value : Value) : Exec Float := do
  let delay ← ofNumber value.toNumber.toFloat
  return if delay.isNaN then 0 else delay

/-- Puts off a call; the answer is the number of the timer. -/
def schedule (delay : Float) (callback : Callback) : Exec Value :=
  update fun machine =>
    let clock := machine.clock.schedule delay callback
    ({ machine with clock := clock }, .int clock.count)

def callNative (native : Native) (args : List Value) : Exec Value :=
  match native, args with
  | .setTimeout, [] => throwText "TypeError: setTimeout requires a callback"
  | .setTimeout, [function] => schedule 0 ⟨function, []⟩
  | .setTimeout, function :: delay :: rest => do schedule (← delayOf delay) ⟨function, rest⟩
  | .string, [] => return .text ""
  | .string, value :: _ => return .text (← display value)
  | .log, args => do
    writeLine (" ".intercalate (← mapItems (fun _ arg => display arg) 0 args))
    return .undefined

/-! ## Methods of arrays -/

/-- Calls a function with each item of an array, its position and the array. The items are those at
the start. -/
def callEach {α : Type} (perform : Performer) (array : ArrayId) (args : List Value)
    (use : Value → Value → Exec α) : Exec (List α) := do
  let items ← getItems array
  let visit (index : Nat) (item : Value) : Exec α :=
    match args with
    | [] => stop (.fault .missingCallback)
    | function :: _ => do
      use item (← perform.invoke function .undefined [item, .int index, .array array])
  mapItems visit 0 items.toList

def separator : List Value → Exec String
  | [] => return ","
  | .undefined :: _ => return ","
  | value :: _ => display value

def callArrayMethod (perform : Performer) (method : ArrayMethod) (array : ArrayId)
    (args : List Value) : Exec Value :=
  match method with
  | .push => do
    modifyItems array (· ++ args.toArray)
    return .int (← getItems array).size
  | .pop => do
    let last := (← getItems array).back?
    modifyItems array Array.pop
    return last.getD .undefined
  | .forEach => do
    let _ ← callEach perform array args fun _ _ => return ()
    return .undefined
  | .map => do
    let results ← callEach perform array args fun _ result => return result
    newArray results.toArray
  | .filter => do
    let results ← callEach perform array args fun item result => do
      return if ← truthy result then [item] else []
    newArray results.flatten.toArray
  | .join => do
    let between ← separator args
    let items ← getItems array
    let texts ← mapItems
      (fun _ item => if item.isMissing then return "" else display item) 0 items.toList
    return .text (between.intercalate texts)
  | .indexOf => do
    let target := args.headD .undefined
    let items ← getItems array
    return match items.toList.findIdx? fun item => item.strictEquals target with
      | some index => .int index
      | none => .int (-1)

/-! ## Functions of the program -/

/-- Gives parameters the values of arguments; parameters without one are `undefined`. -/
def bindParams (frame : FrameId) : List String → List Value → Exec Unit
  | [], _ => return ()
  | name :: names, args => do
    define frame name (args.headD .undefined)
    bindParams frame names args.tail

def callClosure (scoping : Scoping) (perform : Performer) (closure : Closure) (this : Value)
    (args : List Value) : Exec Value := do
  let frame ← newFrame closure.frame true
  if !closure.isArrow then
    define frame "this" this
    define frame "arguments" (← newArray args.toArray)
  bindParams frame closure.params args
  match closure.body with
  | .expr value => perform.eval value frame
  | .block body => catchReturn (execBody scoping perform frame body.body)

/-- The items of an array as arguments; other values give none. -/
def argumentsOf : Option Value → Exec (List Value)
  | some (.array array) => return (← getItems array).toList
  | _ => return []

def callValue (scoping : Scoping) (perform : Performer) (function this : Value)
    (args : List Value) : Exec Value :=
  match function with
  | .function _ closure => callClosure scoping perform closure this args
  | .native x => callNative x args
  | .arrayMethod _ method array => callArrayMethod perform method array args
  | .functionMethod _ .call target =>
    perform.invoke target (args.headD .undefined) args.tail
  | .functionMethod _ .apply target => do
    perform.invoke target (args.headD .undefined) (← argumentsOf args[1]?)
  | other => do
    let shown ← display other
    throwText s!"TypeError: {shown} is not a function"

end LoopCapture.Exec
