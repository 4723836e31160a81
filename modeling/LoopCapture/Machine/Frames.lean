import LoopCapture.Entries

/-!
Frames: the variables of a running program.

A frame holds variables by name and may have a parent. A name means the variable of the nearest
frame, from the frame in use through its parents, that has one. Frames are numbered in the order of
their creation, so the parent of a frame has a smaller number than the frame itself.
-/

set_option autoImplicit false

namespace LoopCapture

abbrev FrameId := Nat

structure Frame (α : Type) where
  parent : Option FrameId
  isFunction : Bool
  slots : Entries String α

structure Frames (α : Type) where
  all : Array (Frame α)

/-- The wording of the error about a name without a variable. -/
def unboundMessage (name : String) : String :=
  s!"ReferenceError: {name} is not defined"

namespace Frames

variable {α : Type}

def empty : Frames α := ⟨#[]⟩

def frame? (frames : Frames α) (id : FrameId) : Option (Frame α) := frames.all[id]?

def add (frames : Frames α) (frame : Frame α) : Frames α × FrameId :=
  let id := frames.all.size
  (⟨frames.all.push frame⟩, id)

def new (frames : Frames α) (parent : Option FrameId) (isFunction : Bool) : Frames α × FrameId :=
  frames.add ⟨parent, isFunction, []⟩

/-- Adds a frame with the same parent and the same variables as another one. -/
def copy (frames : Frames α) (id : FrameId) : Frames α × FrameId :=
  frames.add ((frames.frame? id).getD ⟨none, false, []⟩)

def define (frames : Frames α) (id : FrameId) (name : String) (value : α) : Frames α :=
  ⟨frames.all.modify id fun frame => { frame with slots := frame.slots.put name value }⟩

def owns (frames : Frames α) (id : FrameId) (name : String) : Bool :=
  (frames.frame? id).any (·.slots.has name)

/-- The nearest frame with a variable of the given name among the given number of frames. -/
def findWithin (frames : Frames α) (name : String) : Nat → FrameId → Option FrameId
  | 0, _ => none
  | fuel + 1, id =>
    match frames.frame? id with
    | none => none
    | some frame =>
      if frame.slots.has name then some id
      else match frame.parent with
        | none => none
        | some parent => findWithin frames name fuel parent

def find? (frames : Frames α) (id : FrameId) (name : String) : Option FrameId :=
  frames.findWithin name (id + 1) id

def get? (frames : Frames α) (id : FrameId) (name : String) : Option α :=
  (frames.find? id name).bind fun owner => (frames.frame? owner).bind (·.slots.get? name)

def functionWithin (frames : Frames α) : Nat → FrameId → FrameId
  | 0, id => id
  | fuel + 1, id =>
    match frames.frame? id with
    | none => id
    | some frame =>
      match frame.isFunction, frame.parent with
      | false, some parent => functionWithin frames fuel parent
      | _, _ => id

/-- The nearest frame of a function, or the outermost one. -/
def functionFrame (frames : Frames α) (id : FrameId) : FrameId :=
  frames.functionWithin (id + 1) id

end Frames

end LoopCapture
