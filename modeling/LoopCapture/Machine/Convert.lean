import LoopCapture.Machine.Value

/-!
Conversions and comparisons of values.
-/

set_option autoImplicit false

namespace LoopCapture

/-- Why the machine cannot go on. A program cannot catch these. -/
inductive Fault where
  | number (fault : NumberFault)
  /-- A method that needs a function was called without arguments. -/
  | missingCallback
  /-- An array contains itself. -/
  | nesting
  deriving DecidableEq, Repr

namespace Value

def toNumber : Value → Number
  | .bool b => .int (if b then 1 else 0)
  | .number n => n
  | .null => .int 0
  | .text s => .ofText s
  | _ => .nan

def truthy : Value → Except NumberFault Bool
  | .undefined => .ok false
  | .null => .ok false
  | .bool b => .ok b
  | .number n => if n.isZero then .ok false else do return !(← n.isNaN)
  | .text s => .ok (s != "")
  | _ => .ok true

def typeOf : Value → String
  | .undefined => "undefined"
  | .bool _ => "boolean"
  | .number _ => "number"
  | .text _ => "string"
  | .null => "object"
  | .array _ => "object"
  | .console _ => "object"
  | _ => "function"

/-- The text of a value whose arrays are nested to at most the given depth. Missing items of an
array have no text. -/
def displayWithin (arrays : Arrays) : Nat → Value → Except Fault String
  | _, .undefined => .ok "undefined"
  | _, .null => .ok "null"
  | _, .bool b => .ok (if b then "true" else "false")
  | _, .number n => n.display.mapError .number
  | _, .text s => .ok s
  | 0, .array _ => .error .nesting
  | depth + 1, .array id => do
    let items := (arrays[id]?).getD #[]
    let texts ← items.toList.mapM fun item =>
      if item.isMissing then .ok "" else displayWithin arrays depth item
    return ",".intercalate texts
  | _, .function .. => .ok "function () \x7b [code] \x7d"
  | _, .console _ => .ok "function () \x7b [code] \x7d"
  | _, .native x => .ok s!"function {x.name}() \x7b [native code] \x7d"
  | _, .arrayMethod _ method _ => .ok s!"function {method.name}() \x7b [native code] \x7d"
  | _, .functionMethod _ method _ => .ok s!"function {method.name}() \x7b [native code] \x7d"

/-- The text of a value. Without an array that contains itself, arrays are not nested deeper than
there are arrays. -/
def display (arrays : Arrays) (value : Value) : Except Fault String :=
  value.displayWithin arrays arrays.size

def strictEquals : Value → Value → Bool
  | .undefined, .undefined => true
  | .null, .null => true
  | .bool a, .bool b => a == b
  | .number a, .number b => a.equals b
  | .text a, .text b => a == b
  | .array a, .array b => a == b
  | .function a _, .function b _ => a == b
  | .native a, .native b => a == b
  | .arrayMethod a _ _, .arrayMethod b _ _ => a == b
  | .functionMethod a _ _, .functionMethod b _ _ => a == b
  | .console a, .console b => a == b
  | _, _ => false

def isPrimitive : Value → Bool
  | .text _ => true
  | .bool _ => true
  | .number _ => true
  | _ => false

/-- Equality that takes `undefined` and `null` for the same, and compares texts, booleans and numbers
of different types as numbers. -/
def looseEquals (a b : Value) : Bool :=
  if a.isMissing || b.isMissing then a.isMissing && b.isMissing
  else if a.typeOf == b.typeOf then a.strictEquals b
  else a.isPrimitive && b.isPrimitive && a.toNumber.equals b.toNumber

/-- The position in an array or a text that a key means: an integer from zero on, or a text of
digits. -/
def index? : Value → Except NumberFault (Option Nat)
  | .number (.int i) => do
    let _ ← Number.floatOfInt i
    return if 0 ≤ i then some i.toNat else none
  | .number (.float x) =>
    .ok ((Binary64.toInt? x).bind fun i => if 0 ≤ i then some i.toNat else none)
  | .text s =>
    if s != "" && s.toList.all Text.hasDigitValue then do
      return some (← Number.intOfDigits s.toList).toNat
    else .ok none
  | _ => .ok none

end Value

end LoopCapture
