/-!
Insertions into a text.

All offsets speak of the unchanged source, so they stay valid no matter how many insertions have
been requested. The text with insertions is made in one pass over the insertions in the order of
their offsets, then of their priorities, then of the requests. An insertion is pending until it is
committed; a reading of a range shows committed ones only.
-/

set_option autoImplicit false

namespace LoopCapture

/-- A text to be inserted before the character at an offset. Lower priorities go first at one
offset, and equal ones in the order of their requests. -/
structure Insertion where
  offset : Nat
  text : String
  priority : Int
  request : Nat
  committed : Bool
  deriving DecidableEq, Repr

namespace Insertion

def precedes (a b : Insertion) : Bool :=
  a.offset < b.offset ||
    (a.offset == b.offset &&
      (a.priority < b.priority || (a.priority == b.priority && a.request ≤ b.request)))

end Insertion

structure Insertions where
  source : List Char
  edits : List Insertion

namespace Insertions

def ofSource (source : List Char) : Insertions := ⟨source, []⟩

def inOrder (edits : List Insertion) : List Insertion :=
  edits.mergeSort Insertion.precedes

def slice (source : List Char) (start stop : Nat) : List Char :=
  (source.take stop).drop start

/-- The source from one offset up to another with insertions at ascending offsets in between. -/
def splice (source : List Char) (stop : Nat) : Nat → List Insertion → List Char
  | start, [] => slice source start stop
  | start, edit :: rest =>
    slice source start edit.offset ++ edit.text.toList ++ splice source stop edit.offset rest

def render (insertions : Insertions) : String :=
  String.ofList
    (splice insertions.source insertions.source.length 0 (inOrder insertions.edits))

def textOf (insertions : Insertions) (start stop : Nat) : String :=
  let inside := insertions.edits.filter fun edit =>
    edit.committed && start < edit.offset && edit.offset < stop
  String.ofList (splice insertions.source stop start (inOrder inside))

def commit (insertions : Insertions) : Insertions :=
  { insertions with edits := insertions.edits.map fun edit => { edit with committed := true } }

/-! ## Requests -/

structure Request where
  text : String
  priority : Int
  /-- Append to the latest insertion at the same offset and priority, if there is one. -/
  extend : Bool
  /-- Commit this insertion and all pending ones. -/
  commit : Bool

/-- Appends a text to the first of some insertions, latest first, at an offset and priority. A
committed insertion takes only text that is committed at once. -/
def extendLatest (offset : Nat) (request : Request) : List Insertion → Option (List Insertion)
  | [] => none
  | edit :: earlier =>
    if edit.offset = offset && edit.priority = request.priority then
      if edit.committed && !request.commit then none
      else some ({ edit with text := edit.text ++ request.text } :: earlier)
    else (extendLatest offset request earlier).map (edit :: ·)

def place (insertions : Insertions) (offset : Nat) (request : Request) : Insertions :=
  let extended :=
    if request.extend then extendLatest offset request insertions.edits.reverse else none
  let edits := match extended with
    | some latestFirst => latestFirst.reverse
    | none =>
      insertions.edits ++
        [⟨offset, request.text, request.priority, insertions.edits.length, false⟩]
  let placed : Insertions := { insertions with edits := edits }
  if request.commit then placed.commit else placed

inductive Refusal where
  | outside (offset : Int) (length : Nat)
  | badRange (start stop : Int)
  deriving DecidableEq, Repr

def Refusal.message : Refusal → String
  | .outside offset length => s!"insertion offset {offset} outside source of length {length}"
  | .badRange start stop => s!"invalid range [{start}, {stop})"

/-- Requests an insertion at an offset, which must not lie outside the source. -/
def insert (insertions : Insertions) (offset : Int) (request : Request) :
    Except Refusal Insertions :=
  if 0 ≤ offset && offset ≤ insertions.source.length then
    .ok (insertions.place offset.toNat request)
  else .error (.outside offset insertions.source.length)

/-- The text of a range, which must lie in the source, with the committed insertions inside it. -/
def get (insertions : Insertions) (start stop : Int) : Except Refusal String :=
  if 0 ≤ start && start ≤ stop && stop ≤ insertions.source.length then
    .ok (insertions.textOf start.toNat stop.toNat)
  else .error (.badRange start stop)

end Insertions

end LoopCapture
