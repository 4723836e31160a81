import LoopCapture.Machine.Convert

/-!
Binary operators on values.
-/

set_option autoImplicit false

namespace LoopCapture

def OrderOp.holds : OrderOp → Ordering → Bool
  | .less, o => o == .lt
  | .lessEqual, o => o != .gt
  | .greater, o => o == .gt
  | .greaterEqual, o => o != .lt

def ArithOp.onNumbers : ArithOp → Number → Number → Except NumberFault Number
  | .add => Number.add
  | .sub => Number.sub
  | .mul => Number.mul
  | .div => Number.div
  | .rem => Number.rem

namespace Value

/-- Whether adding to a value joins texts. -/
def joinsTexts : Value → Bool
  | .text _ => true
  | .array _ => true
  | _ => false

def textOrder (a b : String) : Ordering :=
  if a < b then .lt else if a = b then .eq else .gt

/-- Arithmetic. Adding to a text or an array joins the texts of the operands. -/
def arith (arrays : Arrays) (op : ArithOp) (a b : Value) : Except Fault Value :=
  if op = .add && (a.joinsTexts || b.joinsTexts) then do
    let left ← a.display arrays
    let right ← b.display arrays
    return .text (left ++ right)
  else
    (Value.number <$> op.onNumbers a.toNumber b.toNumber).mapError .number

/-- Comparison of numbers; one with NaN does not hold. -/
def orderNumbers (op : OrderOp) (a b : Number) : Except NumberFault Bool := do
  if ← a.isNaN then return false
  else if ← b.isNaN then return false
  else return (a.compare? b).any op.holds

/-- Comparison, of two texts by their characters, of other values by their numbers. -/
def order (op : OrderOp) : Value → Value → Except NumberFault Bool
  | .text a, .text b => .ok (op.holds (textOrder a b))
  | a, b => orderNumbers op a.toNumber b.toNumber

def equality : EqualOp → Value → Value → Bool
  | .strictEqual, a, b => a.strictEquals b
  | .strictUnequal, a, b => !a.strictEquals b
  | .looseEqual, a, b => a.looseEquals b
  | .looseUnequal, a, b => !a.looseEquals b

def binary (arrays : Arrays) : BinaryOp → Value → Value → Except Fault Value
  | .arith op, a, b => arith arrays op a b
  | .order op, a, b => (Value.bool <$> order op a b).mapError .number
  | .equal op, a, b => .ok (.bool (equality op a b))

end Value

end LoopCapture
