/-!
Binary floating point numbers of 64 bits as exact values.

A finite number is `m * 2 ^ q` with a natural number `m < 2 ^ 53`. Everything that depends on the
exact value, such as rounding a quotient, comparing with an integer or taking a remainder, is done
on `m` and `q`.
-/

set_option autoImplicit false

namespace LoopCapture.Binary64

-- Powers are the built in ones of natural numbers, whichever others are in scope.
attribute [local instance (high)] instPowNat

/-- The lowest bits of a number are those of the fraction, then come the exponent and the sign. -/
def fractionBits : Nat := 52

def exponentBits : Nat := 11

def signBit : Nat := fractionBits + exponentBits

inductive Parts where
  | nan
  | infinite (negative : Bool)
  | finite (negative : Bool) (mantissa : Nat) (exponent : Int)
  deriving DecidableEq, Repr

def parts (x : Float) : Parts :=
  let bits : Nat := x.toBits.toNat
  let negative := bits / 2 ^ signBit == 1
  let biased : Nat := bits / 2 ^ fractionBits % 2 ^ exponentBits
  let fraction := bits % 2 ^ fractionBits
  if biased = 2047 then
    if fraction = 0 then .infinite negative else .nan
  else if biased = 0 then .finite negative fraction (-1074)
  else .finite negative (2 ^ fractionBits + fraction) ((biased : Int) - 1075)

/-- The quotient of two natural numbers rounded to the nearest one, a half to the even
neighbour. -/
def roundDiv (n d : Nat) : Nat :=
  let q := n / d
  let r := n % d
  if d < 2 * r || (2 * r == d && q % 2 == 1) then q + 1 else q

/-- A natural number times a power of two, as numerator and denominator. -/
def scaled (m : Nat) (q : Int) : Nat × Nat :=
  if 0 ≤ q then (m * 2 ^ q.toNat, 1) else (m, 2 ^ (-q).toNat)

/-- The greatest `k` with `2 ^ k ≤ n / d`, for positive `n` and `d`. -/
def floorLog2 (n d : Nat) : Int :=
  let k : Int := (n.log2 : Int) - d.log2
  let (up, down) := scaled 1 k
  if n * down < d * up then k - 1 else k

/-- The magnitude bits of the number nearest to `n / d`, a half going to the even neighbour. All
bits of the exponent are set when the quotient is too large. -/
def magnitudeBits (n d : Nat) : Nat :=
  if n = 0 then 0
  else
    let q := max (floorLog2 n d - 52) (-1074)
    let (up, down) := scaled 1 q
    let bits := (q + 1074).toNat * 2 ^ fractionBits + roundDiv (n * down) (d * up)
    min bits (2047 * 2 ^ fractionBits)

/-- The number nearest to `± n / d`; infinite when the quotient is too large. -/
def ofRatio (negative : Bool) (n d : Nat) : Float :=
  Float.ofBits (magnitudeBits n d + if negative then 2 ^ signBit else 0).toUInt64

def ofInt (i : Int) : Float :=
  ofRatio (i < 0) i.natAbs 1

/-- Integers from this one on are too large for a finite number. -/
def integerBound : Nat := 2 ^ (1024 : Nat) - 2 ^ (970 : Nat)

/-- The number nearest to `± n * 10 ^ e`. Powers of ten that decide the result alone are not
computed. -/
def ofDecimal (negative : Bool) (n : Nat) (e : Int) : Float :=
  let places : Int := (Nat.toDigits 10 n).length
  if n = 0 || places + e < -330 then ofRatio negative 0 1
  else if 310 < places + e then ofRatio negative integerBound 1
  else if 0 ≤ e then ofRatio negative (n * 10 ^ e.toNat) 1
  else ofRatio negative n (10 ^ (-e).toNat)

def toInt? (x : Float) : Option Int :=
  match parts x with
  | .finite negative m q =>
    let (up, down) := scaled m q
    if up % down = 0 then
      let magnitude : Int := (up / down : Nat)
      some (if negative then -magnitude else magnitude)
    else none
  | _ => none

def truncate? (x : Float) : Option Int :=
  match parts x with
  | .finite negative m q =>
    let (up, down) := scaled m q
    let magnitude : Int := (up / down : Nat)
    some (if negative then -magnitude else magnitude)
  | _ => none

/-- How an integer compares with a number; `none` for NaN. -/
def compareInt (i : Int) (x : Float) : Option Ordering :=
  match parts x with
  | .nan => none
  | .infinite negative => some (if negative then .gt else .lt)
  | .finite negative m q =>
    let (up, down) := scaled m q
    let signed : Int := if negative then -(up : Int) else up
    some (compare (i * down) signed)

/-- The exact remainder of the division that rounds toward zero, with the sign of the dividend.
`none` where it is undefined: an infinite or NaN dividend, a NaN or zero divisor. -/
def remainder? (x y : Float) : Option Float :=
  match parts x, parts y with
  | .finite _ _ _, .infinite _ => some x
  | .finite negative m q, .finite _ m' q' =>
    if m' = 0 then none
    else
      let common := min q q'
      let a := m * 2 ^ (q - common).toNat
      let b := m' * 2 ^ (q' - common).toNat
      let (up, down) := scaled (a % b) common
      some (ofRatio negative up down)
  | _, _ => none

end LoopCapture.Binary64
