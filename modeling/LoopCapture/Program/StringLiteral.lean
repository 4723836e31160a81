import LoopCapture.Text.Hex

/-!
The text of a string literal.

A backslash starts an escape: the short ones for control characters, up to three octal digits, and
code points of two, four or eight hexadecimal digits. A backslash before a carriage return
continues the literal, and before any other character it stands for itself.
-/

set_option autoImplicit false

namespace LoopCapture

inductive StringFault where
  /-- The literal holds a NUL character. -/
  | nul
  /-- The literal holds a carriage return that no backslash precedes. -/
  | carriageReturn
  /-- An escape by code point has too few digits. -/
  | truncatedEscape
  | codePoint
  deriving DecidableEq, Repr

namespace StringLiteral

def shortEscape? : Char → Option Char
  | '\\' => some '\\'
  | '\x27' => some '\x27'
  | '"' => some '"'
  | 'a' => some '\x07'
  | 'b' => some '\x08'
  | 'f' => some '\x0c'
  | 'n' => some '\n'
  | 'r' => some '\r'
  | 't' => some '\t'
  | 'v' => some '\x0b'
  | _ => none

/-- The number of hexadecimal digits after the letter of an escape by code point. -/
def hexWidth? : Char → Option Nat
  | 'x' => some 2
  | 'u' => some 4
  | 'U' => some 8
  | _ => none

def isOctal (c : Char) : Bool := '0' ≤ c && c ≤ '7'

def octalNumber (cs : List Char) : Nat :=
  cs.foldl (fun value c => 8 * value + (c.toNat - 48)) 0

/-- The character with the code point that the given number of hexadecimal digits write. -/
def codePoint (width : Nat) (cs : List Char) : Except StringFault Char :=
  let digits := cs.take width
  if digits.length < width then .error .truncatedEscape
  else match Text.hexNumber? digits with
    | none => .error .truncatedEscape
    | some code => if code ≤ 0x10ffff then .ok (Char.ofNat code) else .error .codePoint

/-- The escape after a backslash: the characters it stands for, and the text after it. -/
def escape (c : Char) (rest : List Char) : Except StringFault (List Char × List Char) :=
  if c = '\r' then .ok ([], rest)
  else if c = 'N' then .error .truncatedEscape
  else if isOctal c then
    let digits := ((c :: rest).take 3).takeWhile isOctal
    .ok ([Char.ofNat (octalNumber digits)], (c :: rest).drop digits.length)
  else match shortEscape? c, hexWidth? c with
    | some short, _ => .ok ([short], rest)
    | none, some width => do return ([← codePoint width rest], rest.drop width)
    | none, none => .ok (['\\', c], rest)

/-- The text of the characters between the quotes. Each round takes at least one character. -/
def decodeInside : Nat → List Char → Except StringFault (List Char)
  | 0, _ => .ok []
  | _ + 1, [] => .ok []
  | rounds + 1, '\\' :: c :: rest => do
    let (decoded, after) ← escape c rest
    return decoded ++ (← decodeInside rounds after)
  | rounds + 1, c :: rest => do
    if c = '\r' then .error .carriageReturn
    else return c :: (← decodeInside rounds rest)

def decode (spelling : List Char) : Except StringFault String := do
  if spelling.contains '\x00' then .error .nul
  else
    let inside := spelling.tail.dropLast
    return String.ofList (← decodeInside inside.length inside)

end StringLiteral

end LoopCapture
