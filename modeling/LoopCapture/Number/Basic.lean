import LoopCapture.Number.Text

/-!
Numbers of the running program: unbounded integers and binary floating point numbers.

The two kinds stay apart, since integer arithmetic is exact. Comparisons across the kinds are
exact too. An operation that needs an integer in floating point form fails when the integer is
too large for it.
-/

set_option autoImplicit false

namespace LoopCapture

-- Powers are the built in ones of natural numbers, whichever others are in scope.
attribute [local instance (high)] instPowNat

inductive Number where
  | int (value : Int)
  | float (value : Float)

inductive NumberFault where
  /-- An integer too large for floating point, or an infinite number where an integer is due. -/
  | overflow
  | domain
  /-- An integer with too many digits to be written or read. -/
  | digitLimit
  /-- Characters with a digit value that form no decimal numeral. -/
  | ornamentalDigit
  deriving DecidableEq, Repr

namespace Number

def nan : Number := .float (Float.ofBits 0x7ff8000000000000)

def infinity : Number := .float (Float.ofBits 0x7ff0000000000000)

def negativeInfinity : Number := .float (Float.ofBits 0xfff0000000000000)

/-- The floating point number nearest to an integer. -/
def floatOfInt (i : Int) : Except NumberFault Float :=
  if i.natAbs < Binary64.integerBound then .ok (Binary64.ofInt i) else .error .overflow

def toFloat : Number → Except NumberFault Float
  | .int i => floatOfInt i
  | .float x => .ok x

/-- The integer of the same value in place of a floating point number that has one. -/
def ofFloat (x : Float) : Number :=
  match Binary64.toInt? x with
  | some i => .int i
  | none => .float x

/-! ## Comparison -/

/-- How two numbers compare; `none` when one of them is NaN. -/
def compare? : Number → Number → Option Ordering
  | .int i, .int j => some (compare i j)
  | .int i, .float y => Binary64.compareInt i y
  | .float x, .int j => (Binary64.compareInt j x).map Ordering.swap
  | .float x, .float y =>
    if x < y then some .lt else if x == y then some .eq else if y < x then some .gt else none

def equals (a b : Number) : Bool :=
  compare? a b == some .eq

def isZero (a : Number) : Bool :=
  a.equals (.int 0)

/-- Whether a number is NaN. The test takes the number in floating point form. -/
def isNaN (a : Number) : Except NumberFault Bool := do
  return (← a.toFloat).isNaN

/-! ## Arithmetic -/

/-- An operation that is exact on two integers and done in floating point otherwise. -/
def combine (exact : Int → Int → Int) (rounded : Float → Float → Float) :
    Number → Number → Except NumberFault Number
  | .int i, .int j => .ok (.int (exact i j))
  | a, b => do return .float (rounded (← a.toFloat) (← b.toFloat))

def add : Number → Number → Except NumberFault Number := combine (· + ·) (· + ·)

def sub : Number → Number → Except NumberFault Number := combine (· - ·) (· - ·)

def mul : Number → Number → Except NumberFault Number := combine (· * ·) (· * ·)

def neg : Number → Number
  | .int i => .int (-i)
  | .float x => .float (-x)

/-- The floating point number nearest to the quotient of two numbers, the second one not zero. -/
def quotient : Number → Number → Except NumberFault Float
  | .int i, .int j =>
    let x := Binary64.ofRatio (decide (i < 0) != decide (j < 0)) i.natAbs j.natAbs
    if x.isInf then .error .overflow else .ok x
  | a, b => do return (← a.toFloat) / (← b.toFloat)

/-- Division. A quotient with an integer value is an integer. Division by zero of either sign gives
NaN or the infinity with the sign of the dividend. -/
def div (a b : Number) : Except NumberFault Number := do
  if b.isZero then
    if a.isZero then return nan
    else if ← a.isNaN then return nan
    else return if compare? (.int 0) a == some .lt then infinity else negativeInfinity
  else return ofFloat (← quotient a b)

/-- Remainder with the sign of the dividend, computed in floating point and given as an integer
for two integers. -/
def rem (a b : Number) : Except NumberFault Number := do
  if b.isZero then return nan
  else if ← a.isNaN then return nan
  else if ← b.isNaN then return nan
  else match Binary64.remainder? (← a.toFloat) (← b.toFloat) with
    | none => .error .domain
    | some x =>
      match a, b with
      | .int _, .int _ => return .int ((Binary64.truncate? x).getD 0)
      | _, _ => return .float x

def truncate : Number → Except NumberFault Int
  | .int i => .ok i
  | .float x =>
    match Binary64.truncate? x with
    | some i => .ok i
    | none => .error (if x.isNaN then .domain else .overflow)

/-! ## Text -/

/-- The greatest number of digits of an integer that is written or read. -/
def digitLimit : Nat := 4300

/-- Integers from this magnitude on have too many digits. -/
def magnitudeLimit : Nat := 10 ^ digitLimit

def intText (i : Int) : Except NumberFault String :=
  if i.natAbs < magnitudeLimit then
    let digits := Nat.toDigits 10 i.natAbs
    .ok (String.ofList (if i < 0 then '-' :: digits else digits))
  else .error .digitLimit

/-- The text of a number: integer values in decimal digits, others as the shortest decimal. -/
def display : Number → Except NumberFault String
  | .int i => intText i
  | .float x =>
    if x.isNaN then .ok "NaN"
    else if x.isInf then .ok (if 0 < x then "Infinity" else "-Infinity")
    else match Binary64.toInt? x with
      | some i => intText i
      | none => .ok (Binary64.text x)

/-- The number of a text: blanks around it do not count, the empty text is zero, and a text that is
no numeral is NaN. -/
def ofText (text : String) : Number :=
  match Text.trimBlanks text.toList with
  | [] => .int 0
  | cs =>
    match Binary64.ofText? cs with
    | some x => ofFloat x
    | none => nan

/-- The integer written by decimal digits, which must not be too many. -/
def intOfDigits (cs : List Char) : Except NumberFault Int :=
  match Text.decimalNumber? cs with
  | none => .error .ornamentalDigit
  | some n => if digitLimit < cs.length then .error .digitLimit else .ok n

/-- The number of a numeral of the program text: digits with an optional fraction. -/
def ofNumeral (cs : List Char) : Except NumberFault Number :=
  if cs.contains '.' then .ok (.float ((Binary64.ofText? cs).getD 0))
  else do return .int (← intOfDigits cs)

end Number

end LoopCapture
