import LoopCapture.Number.Shortest
import LoopCapture.Text.Blank
import LoopCapture.Text.Digit

/-!
Numbers as text.

Writing uses the shortest decimal that reads back, in positional form for moderate sizes and with
an exponent otherwise. Reading accepts decimal digits of every script, single underscores between
digits, an exponent, and the names of the special values in any case.
-/

set_option autoImplicit false

namespace LoopCapture.Binary64

structure Style where
  /-- The exponents of the leading digit, from the first one on and below the second one, that are
  written in positional form. -/
  positional : Int × Int
  exponentDigits : Nat

/-- Positional from `0.0001` up to sixteen integer digits, else an exponent of two digits or
more. -/
def Style.standard : Style := ⟨(-4, 16), 2⟩

/-- Digits with a point after the first `point` of them, at least one digit on either side. -/
def pointed (digits : List Char) (point : Nat) : List Char :=
  let whole := digits.take point ++ List.replicate (point - digits.length) '0'
  let fraction := digits.drop point
  whole ++ '.' :: (if fraction.isEmpty then ['0'] else fraction)

def exponentText (style : Style) (p : Int) : List Char :=
  let digits := Nat.toDigits 10 p.natAbs
  (if p < 0 then '-' else '+') :: (List.replicate (style.exponentDigits - digits.length) '0' ++ digits)

/-- A positive decimal in the given style; zeros at its end are not significant. -/
def Decimal.text (style : Style) (decimal : Decimal) : List Char :=
  let written := Nat.toDigits 10 decimal.digits
  let top := decimal.exponent + written.length - 1
  let digits := (written.reverse.dropWhile (· == '0')).reverse
  if style.positional.1 ≤ top && top < style.positional.2 then
    if top < 0 then '0' :: '.' :: (List.replicate (-top - 1).toNat '0' ++ digits)
    else pointed digits (top.toNat + 1)
  else
    let mantissa := match digits with
      | [digit] => [digit]
      | digits => pointed digits 1
    mantissa ++ 'e' :: exponentText style top

def text (x : Float) : String :=
  match parts x with
  | .nan => "nan"
  | .infinite negative => if negative then "-inf" else "inf"
  | .finite negative m q =>
    let magnitude := if m = 0 then ['0', '.', '0'] else (shortest m q).text .standard
    String.ofList (if negative then '-' :: magnitude else magnitude)

/-! ## Reading -/

/-- The text without the underscores in it, each of which must stand between two digits. -/
def withoutSeparators? (afterDigit : Bool) : List Char → Option (List Char)
  | [] => some []
  | c :: rest =>
    if c = '_' then
      if afterDigit && rest.head?.any Text.isDecimal then withoutSeparators? false rest else none
    else (withoutSeparators? (Text.isDecimal c) rest).map (c :: ·)

def takeDigits (cs : List Char) : List Nat × List Char :=
  ((cs.takeWhile Text.isDecimal).filterMap Text.decimalValue?, cs.dropWhile Text.isDecimal)

def ofDigits (values : List Nat) : Nat :=
  values.foldl (fun number value => 10 * number + value) 0

def takeSign : List Char → Bool × List Char
  | '-' :: rest => (true, rest)
  | '+' :: rest => (false, rest)
  | cs => (false, cs)

/-- An exponent that takes up the whole text; the empty text is the exponent zero. -/
def exponentOf? : List Char → Option Int
  | [] => some 0
  | mark :: rest =>
    if mark = 'e' || mark = 'E' then
      let (negative, digits) := takeSign rest
      match takeDigits digits with
      | (values@(_ :: _), []) =>
        let magnitude : Int := ofDigits values
        some (if negative then -magnitude else magnitude)
      | _ => none
    else none

def special? (negative : Bool) (name : String) : Option Float :=
  if name = "nan" then some (Float.ofBits 0x7ff8000000000000)
  else if name = "inf" || name = "infinity" then some (ofRatio negative integerBound 1)
  else none

/-- A decimal without sign. -/
def magnitudeOf? (negative : Bool) (cs : List Char) : Option Float :=
  let (whole, afterWhole) := takeDigits cs
  let (fraction, rest) := match afterWhole with
    | '.' :: rest => takeDigits rest
    | rest => ([], rest)
  if whole.isEmpty && fraction.isEmpty then none
  else do
    let exponent ← exponentOf? rest
    return ofDecimal negative (ofDigits (whole ++ fraction)) (exponent - fraction.length)

def ofText? (cs : List Char) : Option Float := do
  let (negative, rest) := takeSign (← withoutSeparators? false cs)
  (special? negative (String.ofList (rest.map Char.toLower))).or (magnitudeOf? negative rest)

end LoopCapture.Binary64
