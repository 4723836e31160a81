/-!
Places in a program text.

Offsets count characters from zero. Lines count line feeds from one, and columns count characters
from one within the line.
-/

set_option autoImplicit false

namespace LoopCapture

/-- A range of a program text, with the line and the column of its first character. -/
structure Loc where
  line : Nat
  column : Nat
  start : Nat
  stop : Nat
  deriving DecidableEq, Repr

namespace Loc

def upTo (first last : Loc) : Loc :=
  { first with stop := last.stop }

def atStart (loc : Loc) : Loc :=
  { loc with stop := loc.start }

def within (inner outer : Loc) : Bool :=
  outer.start ≤ inner.start && inner.stop ≤ outer.stop

end Loc

/-- A place while a text is read: line, column and offset of the next character. -/
structure Cursor where
  line : Nat
  column : Nat
  offset : Nat
  deriving DecidableEq, Repr

namespace Cursor

def origin : Cursor := ⟨1, 1, 0⟩

def step (here : Cursor) (c : Char) : Cursor :=
  if c = '\n' then ⟨here.line + 1, 1, here.offset + 1⟩
  else ⟨here.line, here.column + 1, here.offset + 1⟩

def advance (here : Cursor) (cs : List Char) : Cursor :=
  cs.foldl step here

def rangeTo (first last : Cursor) : Loc :=
  ⟨first.line, first.column, first.offset, last.offset⟩

end Cursor

end LoopCapture
