import LoopCapture.Machine.Frames
import LoopCapture.Proofs.EntryLaws
import Mathlib.Logic.Relation

/-!
Laws of frames.

Parents are created before their children, so every way up ends and the bound in `findWithin` is
never felt. Under this order a lookup is one step at the frame itself followed by a lookup at its
parent, and a definition changes one slot of one frame.
-/

set_option autoImplicit false

namespace LoopCapture

namespace Frames

variable {α : Type}
variable {frames : Frames α} {id : Nat} {name : String} {frame : Frame α}

/-- Parents have smaller numbers than their children. -/
def Ordered (frames : Frames α) : Prop :=
  ∀ {id : Nat} {frame : Frame α} {parent : Nat},
    frames.frame? id = some frame → frame.parent = some parent → parent < id

/-! ## Frames after a change -/

theorem frame?_lt (found : frames.frame? id = some frame) : id < frames.all.size := by
  simp only [frame?, Array.getElem?_eq_some_iff] at found
  exact found.1

@[simp]
theorem frame?_define (frames : Frames α) (owner id : Nat) (name : String) (value : α) :
    (frames.define owner name value).frame? id =
      if owner = id then
        (frames.frame? id).map fun frame => { frame with slots := frame.slots.put name value }
      else frames.frame? id := by
  simp only [frame?, define, Array.getElem?_modify]

theorem frame?_define_self (found : frames.frame? id = some frame) (name : String) (value : α) :
    (frames.define id name value).frame? id =
      some { frame with slots := frame.slots.put name value } := by
  simp [found]

theorem frame?_define_ne {owner : Nat} (different : owner ≠ id) (name : String) (value : α) :
    (frames.define owner name value).frame? id = frames.frame? id := by
  simp [different]

@[simp]
theorem add_id (frames : Frames α) (frame : Frame α) :
    (frames.add frame).2 = frames.all.size := rfl

theorem frame?_add (frames : Frames α) (frame : Frame α) (id : Nat) :
    (frames.add frame).1.frame? id =
      if id = frames.all.size then some frame else frames.frame? id := by
  simp only [frame?, add, Array.getElem?_push]

theorem frame?_add_old {old : Frame α} (found : frames.frame? id = some old) (frame : Frame α) :
    (frames.add frame).1.frame? id = some old := by
  have below := frame?_lt found
  rw [frame?_add, if_neg (by omega), found]

theorem frame?_add_new (frames : Frames α) (frame : Frame α) :
    (frames.add frame).1.frame? frames.all.size = some frame := by
  simp [frame?_add]

theorem size_add (frames : Frames α) (frame : Frame α) :
    (frames.add frame).1.all.size = frames.all.size + 1 := by
  simp [add]

theorem Ordered.define (ordered : frames.Ordered) (owner : Nat) (name : String) (value : α) :
    (frames.define owner name value).Ordered := by
  intro id frame parent found parentIs
  rw [frame?_define] at found
  split at found
  · obtain ⟨old, oldFound, rfl⟩ := Option.map_eq_some_iff.mp found
    exact ordered oldFound parentIs
  · exact ordered found parentIs

theorem Ordered.add (ordered : frames.Ordered)
    (parentBelow : ∀ parent, frame.parent = some parent → parent < frames.all.size) :
    (frames.add frame).1.Ordered := by
  intro id found parent foundAt parentIs
  rw [frame?_add] at foundAt
  split at foundAt
  next isNew =>
      obtain rfl := Option.some.inj foundAt
      exact isNew ▸ parentBelow parent parentIs
  next => exact ordered foundAt parentIs

/-! ## Ways up -/

def HasParent (frames : Frames α) (id parent : FrameId) : Prop :=
  ∃ frame, frames.frame? id = some frame ∧ frame.parent = some parent

/-- The second frame is the first one or stands above it. -/
abbrev Under (frames : Frames α) : FrameId → FrameId → Prop :=
  Relation.ReflTransGen frames.HasParent

theorem le_of_under (ordered : frames.Ordered) {id up : FrameId} (way : frames.Under id up) :
    up ≤ id := by
  induction way with
  | refl => exact Nat.le_refl id
  | tail _ step ih =>
      obtain ⟨frame, found, isParent⟩ := step
      exact Nat.le_trans (Nat.le_of_lt (ordered found isParent)) ih

theorem findWithin_saturated (ordered : frames.Ordered) (name : String) {fuel : Nat}
    (enough : id < fuel) :
    frames.findWithin name fuel id = frames.find? id name := by
  suffices general : ∀ (first second id : Nat), id < first → id < second →
      frames.findWithin name first id = frames.findWithin name second id from
    general fuel (id + 1) id enough (Nat.lt_succ_self id)
  intro first
  induction first with
  | zero => intro second id below; omega
  | succ first firstIH =>
      intro second id below belowSecond
      cases second with
      | zero => omega
      | succ second =>
          simp only [findWithin]
          cases found : frames.frame? id with
          | none => rfl
          | some frame =>
              simp only
              split
              · rfl
              · cases parentIs : frame.parent with
                | none => rfl
                | some parent =>
                    have parentBelow := ordered found parentIs
                    exact firstIH second parent (by omega) (by omega)

/-- A name is found in the frame itself, or else from its parent on. -/
theorem find?_eq (ordered : frames.Ordered) (found : frames.frame? id = some frame)
    (name : String) :
    frames.find? id name =
      if frame.slots.has name then some id
      else frame.parent.bind fun parent => frames.find? parent name := by
  rw [find?, findWithin, found]
  simp only
  split
  · rfl
  · cases parentIs : frame.parent with
    | none => rfl
    | some parent =>
        exact findWithin_saturated ordered name (ordered found parentIs)

theorem find?_own (ordered : frames.Ordered) (found : frames.frame? id = some frame) {value : α}
    (owned : frame.slots.get? name = some value) : frames.find? id name = some id := by
  rw [find?_eq ordered found, if_pos ((Entries.has_iff _ _).mpr ⟨value, owned⟩)]

theorem find?_parent (ordered : frames.Ordered) {parent : Nat}
    (found : frames.frame? id = some frame) (parentIs : frame.parent = some parent)
    (missing : frame.slots.get? name = none) :
    frames.find? id name = frames.find? parent name := by
  have notOwned := (Entries.has_eq_false_iff _ _).mpr missing
  rw [find?_eq ordered found, parentIs]
  simp [notOwned]

theorem find?_root (ordered : frames.Ordered) (found : frames.frame? id = some frame)
    (parentIs : frame.parent = none) (missing : frame.slots.get? name = none) :
    frames.find? id name = none := by
  have notOwned := (Entries.has_eq_false_iff _ _).mpr missing
  rw [find?_eq ordered found, parentIs]
  simp [notOwned]

theorem get?_of_find? {owner : Nat} (foundAt : frames.find? id name = some owner)
    (found : frames.frame? owner = some frame) : frames.get? id name = frame.slots.get? name := by
  simp [get?, foundAt, found]

theorem get?_of_find?_none (missing : frames.find? id name = none) :
    frames.get? id name = none := by
  simp [get?, missing]

theorem get?_congr_find? {other : Nat} (same : frames.find? id name = frames.find? other name) :
    frames.get? id name = frames.get? other name := by
  simp [get?, same]

/-! ## Own variables -/

theorem owns_iff (frames : Frames α) (id : Nat) (name : String) :
    frames.owns id name = true ↔
      ∃ frame, frames.frame? id = some frame ∧ (frame.slots.get? name).isSome := by
  cases found : frames.frame? id with
  | none => simp [owns, found]
  | some frame => simp [owns, found, Entries.has]

/-- A definition takes no variable away. -/
theorem owns_define (owned : frames.owns id name = true) (owner : Nat) (other : String)
    (value : α) :
    (frames.define owner other value).owns id name = true := by
  obtain ⟨frame, found, isSome⟩ := (owns_iff frames id name).mp owned
  rw [owns_iff, frame?_define]
  by_cases here : owner = id
  · refine ⟨_, by rw [if_pos here, found]; rfl, ?_⟩
    rw [Entries.get?_put]
    split
    · rfl
    · exact isSome
  · exact ⟨frame, by rw [if_neg here, found], isSome⟩

theorem owns_define_self (found : frames.frame? id = some frame) (name : String) (value : α) :
    (frames.define id name value).owns id name = true := by
  rw [owns_iff]
  refine ⟨_, frame?_define_self found name value, ?_⟩
  rw [Entries.get?_put, if_pos rfl]
  rfl

/-! ## Lookups after a change -/

/-- What is found stands on the way up and has the variable. -/
theorem findWithin_eq_some {fuel : Nat} {id owner : FrameId}
    (found : frames.findWithin name fuel id = some owner) :
    frames.Under id owner ∧ frames.owns owner name = true := by
  induction fuel generalizing id with
  | zero => cases found
  | succ fuel fuelIH =>
      rw [findWithin] at found
      cases held : frames.frame? id with
      | none => rw [held] at found; cases found
      | some frame =>
          simp only [held] at found
          split at found
          next has =>
            obtain rfl := Option.some.inj found
            exact ⟨.refl, by simp [owns, held, has]⟩
          next =>
            cases isParent : frame.parent with
            | none => rw [isParent] at found; cases found
            | some parent =>
                rw [isParent] at found
                obtain ⟨way, owned⟩ := fuelIH found
                exact ⟨.head ⟨frame, held, isParent⟩ way, owned⟩

/-- A search depends only on the frames on the way up: on their parents and on whether they have
the variable. -/
theorem findWithin_congr {first second : Frames α} {id : FrameId}
    (same : ∀ up, first.Under id up →
      (first.frame? up).map (fun frame => (frame.parent, frame.slots.has name)) =
        (second.frame? up).map fun frame => (frame.parent, frame.slots.has name)) (fuel : Nat) :
    first.findWithin name fuel id = second.findWithin name fuel id := by
  induction fuel generalizing id with
  | zero => rfl
  | succ fuel fuelIH =>
      have here := same id .refl
      rw [findWithin, findWithin]
      cases held : first.frame? id with
      | none =>
          rw [held] at here
          rw [Option.map_eq_none_iff.mp here.symm]
      | some frame =>
          rw [held] at here
          obtain ⟨other, heldToo, alike⟩ := Option.map_eq_some_iff.mp here.symm
          obtain ⟨parents, has⟩ := Prod.mk.inj alike
          simp only [heldToo, parents, has]
          split
          · rfl
          · cases isParent : frame.parent with
            | none => rfl
            | some parent => exact fuelIH fun up way => same up (.head ⟨frame, held, isParent⟩ way)

theorem get?_congr {first second : Frames α} {id : FrameId} (same : ∀ up, first.Under id up →
      (first.frame? up).map (fun frame => (frame.parent, frame.slots.get? name)) =
        (second.frame? up).map fun frame => (frame.parent, frame.slots.get? name)) :
    first.get? id name = second.get? id name := by
  have found : first.find? id name = second.find? id name := by
    refine findWithin_congr (fun up way => ?_) _
    simpa [Entries.has, Function.comp_def] using
      congrArg (Option.map fun view => (view.1, view.2.isSome)) (same up way)
  rw [get?, get?, ← found]
  cases foundAt : first.find? id name with
  | none => rfl
  | some owner =>
      simpa [Option.bind_map, Function.comp_def] using
        congrArg (Option.bind · Prod.snd) (same owner (findWithin_eq_some foundAt).1)

/-- A definition is not seen by lookups of other names. -/
theorem get?_define_ne (frames : Frames α) (owner id : Nat) {other : String}
    (different : other ≠ name) (value : α) :
    (frames.define owner name value).get? id other = frames.get? id other := by
  refine (get?_congr fun up _ => ?_).symm
  rw [frame?_define]
  split
  · cases frames.frame? up <;> simp [Entries.get?_put, different]
  · rfl

/-- New frames are not seen from old ones. -/
theorem get?_add_old (ordered : frames.Ordered) (old : id < frames.all.size) (frame : Frame α)
    (name : String) :
    (frames.add frame).1.get? id name = frames.get? id name := by
  refine (get?_congr fun up way => ?_).symm
  have below : up < frames.all.size := Nat.lt_of_le_of_lt (le_of_under ordered way) old
  rw [frame?_add, if_neg (Nat.ne_of_lt below)]

theorem get?_add_copy (ordered : frames.Ordered) (found : frames.frame? id = some frame)
    (name : String) :
    (frames.add frame).1.get? frames.all.size name = frames.get? id name := by
  have below := frame?_lt found
  have orderedNew : (frames.add frame).1.Ordered :=
    Ordered.add ordered fun parent isParent => Nat.lt_trans (ordered found isParent) below
  have foundNew := frame?_add_new frames frame
  cases owned : frame.slots.get? name with
  | some value =>
      rw [get?_of_find? (find?_own orderedNew foundNew owned) foundNew,
        get?_of_find? (find?_own ordered found owned) found]
  | none =>
      cases isParent : frame.parent with
      | none =>
          rw [get?_of_find?_none (find?_root orderedNew foundNew isParent owned),
            get?_of_find?_none (find?_root ordered found isParent owned)]
      | some parent =>
          rw [get?_congr_find? (find?_parent orderedNew foundNew isParent owned),
            get?_congr_find? (find?_parent ordered found isParent owned),
            get?_add_old ordered (Nat.lt_trans (ordered found isParent) below)]

/-- A new frame without variables sees what its parent sees. -/
theorem get?_add_empty (ordered : frames.Ordered) {parent : Nat}
    (below : parent < frames.all.size) (isFunction : Bool) (name : String) :
    (frames.add ⟨some parent, isFunction, []⟩).1.get? frames.all.size name =
      frames.get? parent name := by
  have orderedNew : (frames.add ⟨some parent, isFunction, []⟩).1.Ordered :=
    Ordered.add ordered fun other (isParent : some parent = some other) =>
      Option.some.inj isParent ▸ below
  rw [get?_congr_find? (find?_parent orderedNew (frame?_add_new _ _) rfl rfl),
    get?_add_old ordered below]

/-- Defining a variable of the newest frame is adding the frame with it. -/
theorem define_add (frames : Frames α) (frame : Frame α) (name : String) (value : α) :
    (frames.add frame).1.define frames.all.size name value =
      (frames.add { frame with slots := frame.slots.put name value }).1 := by
  simp only [define, add, Frames.mk.injEq]
  apply Array.ext_getElem?
  intro index
  simp only [Array.getElem?_modify, Array.getElem?_push]
  by_cases here : frames.all.size = index
  · simp [here]
  · have there : ¬ index = frames.all.size := fun same => here same.symm
    simp [here, there]

end Frames

end LoopCapture
