/-!
Text from bytes: UTF-8 with the place and the reason of the first fault, and one spelling for line
ends.
-/

set_option autoImplicit false

namespace LoopCapture.Text

inductive Utf8Fault where
  | invalidStart
  | invalidContinuation
  | unexpectedEnd
  deriving DecidableEq, Repr

def Utf8Fault.message : Utf8Fault → String
  | .invalidStart => "invalid start byte"
  | .invalidContinuation => "invalid continuation byte"
  | .unexpectedEnd => "unexpected end of data"

/-- What a lead byte announces: the bits it contributes, the range of the byte after it, and the
number of plain continuation bytes after that one. -/
structure Utf8Lead where
  bits : Nat
  low : Nat
  high : Nat
  more : Nat

/-- The lead bytes of sequences of two, three and four bytes. The range of the second byte keeps
out overlong forms, surrogates and numbers above U+10FFFF. -/
def utf8Lead? (b : Nat) : Option Utf8Lead :=
  if 0xc2 ≤ b && b ≤ 0xdf then some ⟨b - 0xc0, 0x80, 0xbf, 0⟩
  else if b = 0xe0 then some ⟨0, 0xa0, 0xbf, 1⟩
  else if b = 0xed then some ⟨0xd, 0x80, 0x9f, 1⟩
  else if 0xe1 ≤ b && b ≤ 0xef then some ⟨b - 0xe0, 0x80, 0xbf, 1⟩
  else if b = 0xf0 then some ⟨0, 0x90, 0xbf, 2⟩
  else if b = 0xf4 then some ⟨4, 0x80, 0x8f, 2⟩
  else if 0xf1 ≤ b && b ≤ 0xf3 then some ⟨b - 0xf0, 0x80, 0xbf, 2⟩
  else none

/-- Reads the continuation bytes that are still due, the next one within the given range. A fault
is placed at the lead byte, which stands at `start`. -/
def utf8Continue (start low high value : Nat) :
    Nat → List UInt8 → Except (Utf8Fault × Nat) (Nat × List UInt8)
  | _, [] => .error (.unexpectedEnd, start)
  | more, b :: rest =>
    if low ≤ b.toNat && b.toNat ≤ high then
      match more with
      | 0 => .ok (64 * value + (b.toNat - 0x80), rest)
      | more + 1 => utf8Continue start 0x80 0xbf (64 * value + (b.toNat - 0x80)) more rest
    else .error (.invalidContinuation, start)

/-- One character from the front of the bytes at offset `start`, with the number of its bytes. -/
def utf8Char (start : Nat) (b : UInt8) (rest : List UInt8) :
    Except (Utf8Fault × Nat) (Nat × Nat × List UInt8) :=
  if b.toNat < 0x80 then .ok (b.toNat, 1, rest)
  else match utf8Lead? b.toNat with
    | none => .error (.invalidStart, start)
    | some lead => do
      let (code, rest) ← utf8Continue start lead.low lead.high lead.bits lead.more rest
      return (code, lead.more + 2, rest)

/-- Reads characters while bytes remain. Each character takes at least one byte, so as many rounds
as there are bytes suffice. -/
def utf8Chars : Nat → Nat → List UInt8 → Except (Utf8Fault × Nat) (List Char)
  | 0, _, _ => .ok []
  | _ + 1, _, [] => .ok []
  | rounds + 1, start, b :: bytes => do
    let (code, width, rest) ← utf8Char start b bytes
    let tail ← utf8Chars rounds (start + width) rest
    return Char.ofNat code :: tail

/-- The characters of UTF-8 bytes, or the first fault and the offset of its lead byte. -/
def decodeUtf8 (bytes : List UInt8) : Except (Utf8Fault × Nat) (List Char) :=
  utf8Chars bytes.length 0 bytes

/-- One line feed for each of the three line ends CR LF, CR and LF. -/
def unifyLineEnds : List Char → List Char
  | '\r' :: '\n' :: rest => '\n' :: unifyLineEnds rest
  | '\r' :: rest => '\n' :: unifyLineEnds rest
  | c :: rest => c :: unifyLineEnds rest
  | [] => []

def decodeFile (bytes : List UInt8) : Except (Utf8Fault × Nat) (List Char) := do
  return unifyLineEnds (← decodeUtf8 bytes)

end LoopCapture.Text
