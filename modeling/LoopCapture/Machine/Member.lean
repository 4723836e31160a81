import LoopCapture.Machine.Exec

/-!
Members of values: items, lengths and methods.
-/

set_option autoImplicit false

namespace LoopCapture.Exec

def count (n : Nat) : Value := .int n

def arrayMethod (array : ArrayId) (name : String) : Exec Value :=
  match ArrayMethod.ofName? name with
  | none => return .undefined
  | some method => return .arrayMethod (← newStamp) method array

def functionMethod (target : Value) (name : String) : Exec Value :=
  match FunctionMethod.ofName? name with
  | none => return .undefined
  | some method => return .functionMethod (← newStamp) method target

def isLength : Value → Bool
  | .text s => s == "length"
  | _ => false

def arrayMember (array : ArrayId) (key : Value) : Exec Value := do
  match ← ofNumber key.index? with
  | some index => return ((← getItems array)[index]?).getD .undefined
  | none =>
    if isLength key then return count (← getItems array).size
    else arrayMethod array (← display key)

def textMember (text : String) (key : Value) : Exec Value := do
  match ← ofNumber key.index? with
  | some index =>
    match text.toList[index]? with
    | some c => return .text (String.singleton c)
    | none => return .undefined
  | none => return if isLength key then count text.length else .undefined

def getMember (base key : Value) : Exec Value :=
  match base with
  | .array array => arrayMember array key
  | .text text => textMember text key
  | .console _ => do return if (← display key) == "log" then .native .log else .undefined
  | .bool _ => return .undefined
  | .number _ => return .undefined
  | base => do
    if base.isMissing then
      let shownBase ← display base
      let shownKey ← display key
      throwText s!"TypeError: Cannot read properties of {shownBase} (reading '{shownKey}')"
    else functionMethod base (← display key)

/-- The items with one of them changed; items in between are `undefined`. -/
def setItem (items : Array Value) (index : Nat) (value : Value) : Array Value :=
  (items ++ Array.replicate (index + 1 - items.size) Value.undefined).setIfInBounds index value

/-- The first items up to a length; a length below zero counts from the end. -/
def shorten (items : Array Value) (length : Int) : Array Value :=
  if 0 ≤ length then items.take length.toNat else items.take (items.size - length.natAbs)

def refuseMember (base key : Value) : Exec Unit := do
  let shownKey ← display key
  let shownBase ← display base
  throwText s!"TypeError: cannot set property '{shownKey}' of {shownBase}"

/-- Assigns to the member of a value with a key. Only items and lengths of arrays can be assigned
to. -/
def setMember (base key value : Value) : Exec Unit :=
  match base with
  | .array array => do
    match ← ofNumber key.index? with
    | some index => modifyItems array fun items => setItem items index value
    | none =>
      if isLength key then
        let length ← ofNumber value.toNumber.truncate
        modifyItems array fun items => shorten items length
      else refuseMember base key
  | base => refuseMember base key

end LoopCapture.Exec
