import LoopCapture.Text.Hex

/-!
Texts by their code points.

An escape can name one half of a surrogate pair without the other. Such a surrogate is a code point
but no character, so a text that holds one is no string.
-/

set_option autoImplicit false

namespace LoopCapture

/-- A code point: a character, or a surrogate that stands alone. -/
inductive CodePoint where
  | char (c : Char)
  | surrogate (unit : Nat)
  deriving DecidableEq, Repr

abbrev CodePoints := List CodePoint

namespace CodePoint

def ofNat (n : Nat) : CodePoint :=
  if h : n.isValidChar then .char (Char.ofNatAux n h) else .surrogate n

def char? : CodePoint → Option Char
  | .char c => some c
  | .surrogate _ => none

/-- The characters that print a code point. A surrogate is printed by its number. -/
def printed : CodePoint → List Char
  | .char c => [c]
  | .surrogate unit => '\\' :: 'u' :: Text.hexDigits 4 unit

end CodePoint

namespace CodePoints

def ofString (text : String) : CodePoints :=
  text.toList.map .char

def toString? (points : CodePoints) : Option String :=
  (points.mapM CodePoint.char?).map String.ofList

def printed (points : CodePoints) : String :=
  String.ofList (points.flatMap CodePoint.printed)

end CodePoints

end LoopCapture
