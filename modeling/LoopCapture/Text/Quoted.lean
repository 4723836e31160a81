import LoopCapture.Text.CodePoint
import LoopCapture.Text.Printable

/-!
Quoted texts, as messages show them.

A text stands in single quotes, or in double quotes when it holds a single quote and no double
one. Line feed, carriage return, tab, the backslash and the quote in use are escaped by a
backslash, and every code point that cannot be printed is given by its number.
-/

set_option autoImplicit false

namespace LoopCapture.Text

def quoteFor (points : CodePoints) : Char :=
  if points.contains (.char '\x27') && !points.contains (.char '"') then '"' else '\x27'

/-- The code point of an unprintable character, in the shortest of the three fixed widths. -/
def escapeCode (c : Char) : List Char :=
  let n := c.toNat
  if n < 0x100 then '\\' :: 'x' :: hexDigits 2 n
  else if n < 0x10000 then '\\' :: 'u' :: hexDigits 4 n
  else '\\' :: 'U' :: hexDigits 8 n

def quotedChar (quote c : Char) : List Char :=
  if c = quote || c = '\\' then ['\\', c]
  else if c = '\n' then ['\\', 'n']
  else if c = '\r' then ['\\', 'r']
  else if c = '\t' then ['\\', 't']
  else if isPrintable c then [c]
  else escapeCode c

def quotedPoint (quote : Char) : CodePoint → List Char
  | .char c => quotedChar quote c
  | .surrogate unit => (CodePoint.surrogate unit).printed

def quotedPoints (points : CodePoints) : String :=
  let quote := quoteFor points
  String.ofList (quote :: points.flatMap (quotedPoint quote) ++ [quote])

def quoted (text : String) : String :=
  quotedPoints (.ofString text)

end LoopCapture.Text
