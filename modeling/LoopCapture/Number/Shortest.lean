import LoopCapture.Number.Binary64

/-!
The shortest decimal that reads back as a given number.

Every finite number is the nearest one to all reals of an interval around it; the ends belong to
it when the mantissa is even. Of the decimals in the interval the ones with the fewest digits are
wanted, and of these the one nearest to the number.
-/

set_option autoImplicit false

namespace LoopCapture.Binary64

-- Powers are the built in ones of natural numbers, whichever others are in scope.
attribute [local instance (high)] instPowNat

structure Decimal where
  digits : Nat
  exponent : Int
  deriving DecidableEq, Repr

def decimalPlaces (n : Nat) : Nat := (Nat.toDigits 10 n).length

/-- The greatest `p` with `10 ^ p ≤ n / d`, for positive `n` and `d`. -/
def floorLog10 (n d : Nat) : Int :=
  if d ≤ n then decimalPlaces (n / d) - 1
  else
    let t := decimalPlaces (d / n)
    if d ≤ n * 10 ^ (t - 1) then -((t : Int) - 1) else -(t : Int)

/-- Four times the ends of the interval that rounds to `m * 2 ^ q`, in units of `2 ^ q`. The gap
below a power of two is half the gap above it, save at the bottom of the range. -/
def interval (m : Nat) (q : Int) : Nat × Nat :=
  (if m = 2 ^ fractionBits ∧ -1074 < q then 4 * m - 1 else 4 * m - 2, 4 * m + 2)

/-- Whether `c * 10 ^ k` lies in the interval of `m * 2 ^ q`. -/
def readsBack (m : Nat) (q : Int) (c : Nat) (k : Int) : Bool :=
  let (low, high) := interval m q
  let (up, down) := scaled 1 q
  let (tenUp, tenDown) : Nat × Nat :=
    if 0 ≤ k then (10 ^ k.toNat, 1) else (1, 10 ^ (-k).toNat)
  let value := 4 * c * tenUp * down
  let unit := up * tenDown
  if m % 2 = 0 then low * unit ≤ value && value ≤ high * unit
  else low * unit < value && value < high * unit

/-- The decimal on the grid `10 ^ k` that reads back as `m * 2 ^ q` and is nearest to it, a tie
going to the even one of the two neighbours. -/
def onGrid? (m : Nat) (q k : Int) : Option Decimal :=
  let (up, down) := scaled m q
  let (n, d) : Nat × Nat :=
    if 0 ≤ k then (up, down * 10 ^ k.toNat) else (up * 10 ^ (-k).toNat, down)
  let c := n / d
  let twice := 2 * (n % d)
  let preferUpper := d < twice || (twice == d && c % 2 == 1)
  let lower := readsBack m q c k
  let upper := readsBack m q (c + 1) k
  if lower && !(upper && preferUpper) then some ⟨c, k⟩
  else if upper then some ⟨c + 1, k⟩
  else none

/-- The shortest decimal for `m * 2 ^ q` with positive `m`: the first one on the grids from coarse
to fine. Seventeen digits always suffice. -/
def shortest (m : Nat) (q : Int) : Decimal :=
  let (up, down) := scaled m q
  let top := floorLog10 up down
  ((List.range 17).findSome? fun (places : Nat) => onGrid? m q (top - places)).getD ⟨m, 0⟩

end LoopCapture.Binary64
