import LoopCapture.Machine.Exec
import LoopCapture.Proofs.Machine.FrameLaws
import LoopCapture.Proofs.Wrapped.Fits
import Mathlib.Data.List.Forall2

/-!
# Two machines side by side

The first machine runs a program, the second one the same program with some loop bodies wrapped or
with block scopes that the first one does without. A pairing says which frames, arrays and stamps of
the two stand for each other. It only grows while the machines run.

Most frames are paired one to one. The frame of a wrapped body is different: on the second side its
variables live in the frame of the wrapping function, under a frame of the block that stays empty.
The wrapping function also owns `this`, `arguments` and, if it has a parameter, the iteration
variable, which the first side keeps in the frame of the iteration. The frame of a block that only
the second side has stays empty too; it stands for the same frame as the one above it.
-/

set_option autoImplicit false

namespace LoopCapture

/-- How a frame of the second machine stands for one of the first. -/
inductive Link where
  /-- Both own the same variables. -/
  | same
  /-- The frame of a body against the frame of its wrapping function. If that has a parameter, the
  frame of the iteration and the name of the parameter are given. -/
  | wrapped (holder : Option (FrameId × String))
  /-- The frame of a block on the second side owns nothing. -/
  | blank

/-- What stands for what. -/
structure Pairing where
  frames : FrameId → FrameId → Link → Prop
  /-- Frames of the first machine from which `arguments` means the same on both sides. -/
  clear : FrameId → Prop
  arrays : ArrayId → ArrayId → Prop
  stamps : Stamp → Stamp → Prop

namespace Pairing

/-- One pairing is part of another one. -/
structure Le (first second : Pairing) : Prop where
  frames : ∀ {e e' link}, first.frames e e' link → second.frames e e' link
  clear : ∀ {e}, first.clear e → second.clear e
  arrays : ∀ {a a'}, first.arrays a a' → second.arrays a a'
  stamps : ∀ {s s'}, first.stamps s s' → second.stamps s s'

instance : LE Pairing := ⟨Le⟩

theorem le_refl (pairing : Pairing) : pairing ≤ pairing := ⟨id, id, id, id⟩

theorem le_trans {first second third : Pairing} (early : first ≤ second) (late : second ≤ third) :
    first ≤ third :=
  ⟨fun h => late.frames (early.frames h), fun h => late.clear (early.clear h),
    fun h => late.arrays (early.arrays h), fun h => late.stamps (early.stamps h)⟩

end Pairing

/-! ## Values -/

section Values

variable (diff : Difference) (pairing : Pairing)

/-- Closures made of the same code in paired frames. -/
structure ClosureMatch (first second : Closure) : Prop where
  isArrow : second.isArrow = first.isArrow
  params : second.params = first.params
  body : second.body = WrapLoops.arrowBody diff.chosen first.body
  frames : ∃ link, pairing.frames first.frame second.frame link
  names : ∀ name ∈ first.params, name ≠ "this"
  /-- The code fits if `arguments` is used only where it means the same. -/
  fits : ∃ arguments : Bool, Fits.arrowBody diff arguments first.body ∧
    (arguments = true → first.isArrow = true →
      pairing.clear first.frame ∨ first.body.declaresArguments diff.rule first.params = true)
  /-- Only arrow functions have an expression for a body. -/
  block : first.isArrow = false → ∃ body, first.body = .block body

/-- Values that stand for each other. -/
inductive ValueMatch : Value → Value → Prop where
  | undefined : ValueMatch .undefined .undefined
  | null : ValueMatch .null .null
  | bool (value : Bool) : ValueMatch (.bool value) (.bool value)
  | number (value : Number) : ValueMatch (.number value) (.number value)
  | text (value : String) : ValueMatch (.text value) (.text value)
  | array {a a' : ArrayId} : pairing.arrays a a' → ValueMatch (.array a) (.array a')
  | function {s s' : Stamp} {c c' : Closure} :
      pairing.stamps s s' → ClosureMatch diff pairing c c' →
      ValueMatch (.function s c) (.function s' c')
  | native (native : Native) : ValueMatch (.native native) (.native native)
  | arrayMethod {s s' : Stamp} (method : ArrayMethod) {a a' : ArrayId} :
      pairing.stamps s s' → pairing.arrays a a' →
      ValueMatch (.arrayMethod s method a) (.arrayMethod s' method a')
  | functionMethod {s s' : Stamp} (method : FunctionMethod) {target target' : Value} :
      pairing.stamps s s' → ValueMatch target target' →
      ValueMatch (.functionMethod s method target) (.functionMethod s' method target')
  | console (stamp : Stamp) : ValueMatch (.console stamp) (.console stamp)

abbrev SlotMatch : Option Value → Option Value → Prop := Option.Rel (ValueMatch diff pairing)

abbrev ValuesMatch : List Value → List Value → Prop := List.Forall₂ (ValueMatch diff pairing)

end Values

variable {diff : Difference} {pairing later : Pairing}

theorem ClosureMatch.mono (grows : pairing ≤ later) {first second : Closure}
    (closures : ClosureMatch diff pairing first second) :
    ClosureMatch diff later first second where
  isArrow := closures.isArrow
  params := closures.params
  body := closures.body
  frames := by
    obtain ⟨link, paired⟩ := closures.frames
    exact ⟨link, grows.frames paired⟩
  names := closures.names
  fits := by
    obtain ⟨arguments, fits, allowed⟩ := closures.fits
    exact ⟨arguments, fits, fun used arrow => (allowed used arrow).imp_left grows.clear⟩
  block := closures.block

theorem ValueMatch.mono (grows : pairing ≤ later) {first second : Value}
    (values : ValueMatch diff pairing first second) : ValueMatch diff later first second := by
  induction values with
  | undefined => exact .undefined
  | null => exact .null
  | bool value => exact .bool value
  | number value => exact .number value
  | text value => exact .text value
  | array arrays => exact .array (grows.arrays arrays)
  | function stamps closures => exact .function (grows.stamps stamps) (closures.mono grows)
  | native value => exact .native value
  | arrayMethod method stamps arrays =>
      exact .arrayMethod method (grows.stamps stamps) (grows.arrays arrays)
  | functionMethod method stamps _ targetIH =>
      exact .functionMethod method (grows.stamps stamps) targetIH
  | console stamp => exact .console stamp

theorem SlotMatch.mono (grows : pairing ≤ later) {first second : Option Value}
    (slots : SlotMatch diff pairing first second) : SlotMatch diff later first second := by
  cases slots with
  | none => exact .none
  | some values => exact .some (values.mono grows)

theorem SlotMatch.of_some {value : Value} {slot : Option Value}
    (slots : SlotMatch diff pairing (some value) slot) :
    ∃ value', slot = some value' ∧ ValueMatch diff pairing value value' := by
  cases slots with
  | some values => exact ⟨_, rfl, values⟩

theorem SlotMatch.of_none {slot : Option Value} (slots : SlotMatch diff pairing none slot) :
    slot = none := by
  cases slots; rfl

theorem ValuesMatch.mono (grows : pairing ≤ later) {first second : List Value}
    (values : ValuesMatch diff pairing first second) : ValuesMatch diff later first second :=
  values.imp fun _ _ h => h.mono grows

/-! ## Frames -/

section Machines

variable (diff : Difference) (pairing : Pairing)

inductive ParentMatch : Option FrameId → Option FrameId → Prop where
  | root : ParentMatch none none
  | above {q q' : FrameId} {link : Link} :
      pairing.frames q q' link → ParentMatch (some q) (some q')

/-- The way from the frame under the body up to the frame of the loop: nothing, or the frame of the
iteration, which owns the iteration variable only. -/
def WayUp (frames : Frames Value) (under outer : FrameId) : Option String → Prop
  | none => under = outer
  | some name => ∃ frame, frames.frame? under = some frame ∧ frame.parent = some outer ∧
      ∀ other, other ≠ name → frame.slots.get? other = none

/-- The frames around a wrapped body: the frame of the body and the one under it on the first side;
the frame of the wrapping function, the empty frame of the block and the one under that on the
second side; the frames of the loop on both sides. -/
structure WrappedFrames where
  frame : Frame Value
  under : FrameId
  outer : FrameId
  frame' : Frame Value
  block : FrameId
  blank : Frame Value
  under' : FrameId
  outer' : FrameId
  link : Link
  this : Value
  this' : Value

/-- The frame of a body stands for the frame of its wrapping function. -/
structure WrappedFrames.Valid (around : WrappedFrames) (first second : Frames Value)
    (e e' : FrameId) (holder : Option (FrameId × String)) : Prop where
  frame : first.frame? e = some around.frame
  parent : around.frame.parent = some around.under
  way : WayUp first around.under around.outer (holder.map Prod.snd)
  holderIs : ∀ {id name}, holder = some (id, name) → id = around.under ∧ name ≠ "this"
  frame' : second.frame? e' = some around.frame'
  parent' : around.frame'.parent = some around.block
  blank : second.frame? around.block = some around.blank
  blankSlots : around.blank.slots = []
  blankParent : around.blank.parent = some around.under'
  way' : WayUp second around.under' around.outer' (holder.map Prod.snd)
  outer : pairing.frames around.outer around.outer' around.link
  /-- Nothing runs in the empty frame of the block. -/
  blockFree : ∀ d k, ¬ pairing.frames d around.block k
  underFree : holder.isSome → ∀ d k, ¬ pairing.frames d around.under' k
  /-- The variables of the body are those of the function, except for an iteration variable that the
  body does not hide. -/
  slots : ∀ name, name ≠ "this" → name ≠ "arguments" →
    (holder.map Prod.snd ≠ some name ∨ (around.frame.slots.get? name).isSome →
      SlotMatch diff pairing (around.frame.slots.get? name) (around.frame'.slots.get? name)) ∧
    (holder.map Prod.snd = some name → around.frame.slots.get? name = none →
      ∃ held value value', first.frame? around.under = some held ∧
        held.slots.get? name = some value ∧ around.frame'.slots.get? name = some value' ∧
        ValueMatch diff pairing value value')
  noThis : around.frame.slots.get? "this" = none
  this : first.get? around.outer "this" = some around.this
  this' : around.frame'.slots.get? "this" = some around.this'
  thisMatch : ValueMatch diff pairing around.this around.this'

/-- What the frames of a pair own, and what is above them. -/
inductive FrameMatch (first second : Frames Value) (e e' : FrameId) : Link → Prop where
  | same {frame frame' : Frame Value} :
      first.frame? e = some frame → second.frame? e' = some frame' →
      (∀ name, SlotMatch diff pairing (frame.slots.get? name) (frame'.slots.get? name)) →
      ParentMatch pairing frame.parent frame'.parent → FrameMatch first second e e' .same
  | wrapped {holder : Option (FrameId × String)} (around : WrappedFrames) :
      around.Valid diff pairing first second e e' holder →
      FrameMatch first second e e' (.wrapped holder)
  | blank {frame frame' : Frame Value} {q' : FrameId} {link : Link} : diff = .scoping →
      first.frame? e = some frame → second.frame? e' = some frame' → frame'.slots = [] →
      frame'.parent = some q' → pairing.frames e q' link → FrameMatch first second e e' .blank

/-- Calls put off on both sides. -/
structure TimerMatch (first second : Timer Float Callback) : Prop where
  due : second.due = first.due
  id : second.id = first.id
  function : ValueMatch diff pairing first.action.function second.action.function
  args : ValuesMatch diff pairing first.action.args second.action.args

/-- Arrays with matching items. -/
def ArrayMatch (first second : Arrays) (a a' : ArrayId) : Prop :=
  ∃ items items', first[a]? = some items ∧ second[a']? = some items' ∧
    ValuesMatch diff pairing items.toList items'.toList

/-- Machines that are in matching states. -/
structure Paired (first second : Machine) : Prop where
  ordered : first.frames.Ordered
  ordered' : second.frames.Ordered
  /-- A frame is in one pair only, apart from pairs with blank frames. -/
  unique : ∀ {e e' d d' : FrameId} {link k : Link}, pairing.frames e e' link →
    pairing.frames d d' k → (e = d ∧ link ≠ .blank ∧ k ≠ .blank) ∨ e' = d' →
    e = d ∧ e' = d' ∧ link = k
  /-- The frame of an iteration whose variable is a parameter is in no pair, and it belongs to one
  body only. -/
  holder : ∀ {e e' id : FrameId} {name : String},
    pairing.frames e e' (.wrapped (some (id, name))) →
    (∀ d d' k, pairing.frames d d' k → d ≠ id) ∧
    (∀ d d' other, pairing.frames d d' (.wrapped (some (id, other))) → d = e)
  frame : ∀ {e e' : FrameId} {link : Link}, pairing.frames e e' link →
    FrameMatch diff pairing first.frames second.frames e e' link
  clear : ∀ {e : FrameId}, pairing.clear e → ∃ e' frame, pairing.frames e e' .same ∧
    first.frames.frame? e = some frame ∧
    ((frame.slots.get? "arguments").isSome ∨ ∀ q, frame.parent = some q → pairing.clear q)
  this : ∀ {e e' : FrameId} {link : Link}, pairing.frames e e' link →
    (first.frames.get? e "this").isSome
  arraysUnique : ∀ {a a' b b' : ArrayId}, pairing.arrays a a' → pairing.arrays b b' →
    (a = b ↔ a' = b')
  array : ∀ {a a' : ArrayId}, pairing.arrays a a' →
    ArrayMatch diff pairing first.arrays second.arrays a a'
  arraysSize : first.arrays.size ≤ second.arrays.size
  stampsUnique : ∀ {s s' t t' : Stamp}, pairing.stamps s s' → pairing.stamps t t' →
    (s = t ↔ s' = t')
  stamp : ∀ {s s' : Stamp}, pairing.stamps s s' → s < first.stamp ∧ s' < second.stamp
  now : second.clock.now = first.clock.now
  count : second.clock.count = first.clock.count
  pending : List.Forall₂ (TimerMatch diff pairing) first.clock.pending second.clock.pending
  lines : second.lines = first.lines

end Machines

end LoopCapture
