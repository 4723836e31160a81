import LoopCapture.Proofs.Machine.FrameLaws

/-!
Frames that grow.

While a program runs, frames are added and variables are defined, but no frame loses a variable or
gets another parent. So a name that has a variable from some frame on has one ever after.
-/

set_option autoImplicit false

namespace LoopCapture.Frames

variable {α : Type}

/-- Every frame of the first is one of the second, with the same parent and no variable missing. -/
def Grows (old new : Frames α) : Prop :=
  ∀ ⦃id : FrameId⦄ ⦃frame : Frame α⦄, old.frame? id = some frame →
    ∃ grown, new.frame? id = some grown ∧ grown.parent = frame.parent ∧
      ∀ name, frame.slots.has name = true → grown.slots.has name = true

/-- A name has a variable in a frame or in one above it. -/
def Binds (frames : Frames α) (id : FrameId) (name : String) : Prop :=
  (frames.find? id name).isSome = true

theorem Grows.refl (frames : Frames α) : frames.Grows frames :=
  fun _ _ found => ⟨_, found, rfl, fun _ has => has⟩

theorem Grows.trans {first second third : Frames α} (early : first.Grows second)
    (late : second.Grows third) : first.Grows third := by
  intro id frame found
  obtain ⟨grown, foundGrown, parent, keeps⟩ := early found
  obtain ⟨final, foundFinal, parent', keeps'⟩ := late foundGrown
  exact ⟨final, foundFinal, parent'.trans parent, fun name has => keeps' name (keeps name has)⟩

theorem grows_add (frames : Frames α) (frame : Frame α) : frames.Grows (frames.add frame).1 :=
  fun _ _ found => ⟨_, frame?_add_old found frame, rfl, fun _ has => has⟩

theorem grows_define (frames : Frames α) (owner : FrameId) (name : String) (value : α) :
    frames.Grows (frames.define owner name value) := by
  intro id frame found
  by_cases here : owner = id
  · subst here
    refine ⟨_, frame?_define_self found name value, rfl, fun other has => ?_⟩
    simp only [Entries.has, Entries.get?_put] at has ⊢
    split
    · rfl
    · exact has
  · exact ⟨frame, by rw [frame?_define_ne here, found], rfl, fun _ has => has⟩

/-- What is found on a way up stays so, and a longer way does no harm. -/
theorem isSome_findWithin_mono {old new : Frames α} (grows : old.Grows new) {name : String}
    {fuel longer : Nat} (enough : fuel ≤ longer) {id : FrameId}
    (found : (old.findWithin name fuel id).isSome = true) :
    (new.findWithin name longer id).isSome = true := by
  induction fuel generalizing longer id with
  | zero => cases found
  | succ fuel fuelIH =>
      obtain ⟨more, rfl⟩ : ∃ more, longer = more + 1 := ⟨longer - 1, by omega⟩
      simp only [findWithin] at found ⊢
      cases held : old.frame? id with
      | none => rw [held] at found; cases found
      | some frame =>
          obtain ⟨grown, foundGrown, parent, keeps⟩ := grows held
          rw [held] at found
          simp only [foundGrown, parent]
          cases has : grown.slots.has name with
          | true => rfl
          | false =>
              have hadNot : ¬ frame.slots.has name = true := fun had => by
                rw [keeps name had] at has
                cases has
              simp only [hadNot] at found
              cases isParent : frame.parent with
              | none => rw [isParent] at found; cases found
              | some above =>
                  rw [isParent] at found
                  exact fuelIH (by omega) found

namespace Binds

variable {frames later : Frames α} {id : FrameId} {name : String}

theorem mono (bound : frames.Binds id name) (grows : frames.Grows later) : later.Binds id name :=
  isSome_findWithin_mono grows (Nat.le_refl _) bound

theorem exists_frame (bound : frames.Binds id name) : ∃ frame, frames.frame? id = some frame := by
  cases found : frames.frame? id with
  | some frame => exact ⟨frame, rfl⟩
  | none => simp [Binds, find?, findWithin, found] at bound

theorem own {frame : Frame α} (found : frames.frame? id = some frame)
    (has : frame.slots.has name = true) : frames.Binds id name := by
  simp [Binds, find?, findWithin, found, has]

theorem of_owns (owned : frames.owns id name = true) : frames.Binds id name := by
  obtain ⟨frame, found, has⟩ := (owns_iff frames id name).mp owned
  exact own found has

theorem exists_value (bound : frames.Binds id name) : ∃ value, frames.get? id name = some value := by
  obtain ⟨owner, found⟩ := Option.isSome_iff_exists.mp bound
  obtain ⟨frame, held, has⟩ := (owns_iff frames owner name).mp (findWithin_eq_some found).2
  obtain ⟨value, stored⟩ := Option.isSome_iff_exists.mp has
  exact ⟨value, by rw [get?_of_find? found held, stored]⟩

/-- A new frame has what its parent has. -/
theorem child {frame : Frame α} (bound : frames.Binds id name) (isParent : frame.parent = some id) :
    (frames.add frame).1.Binds frames.all.size name := by
  obtain ⟨parent, foundParent⟩ := bound.exists_frame
  have below := frame?_lt foundParent
  simp only [Binds, find?, findWithin, frame?_add_new, isParent]
  split
  · rfl
  · exact isSome_findWithin_mono (grows_add frames frame) below bound

theorem copy {frame : Frame α} (bound : frames.Binds id name) (found : frames.frame? id = some frame) :
    (frames.add frame).1.Binds frames.all.size name := by
  have below := frame?_lt found
  simp only [Binds, find?, findWithin, found] at bound
  simp only [Binds, find?, findWithin, frame?_add_new]
  split
  · rfl
  · rename_i hasNot
    rw [if_neg hasNot] at bound
    cases isParent : frame.parent with
    | none => rw [isParent] at bound; cases bound
    | some parent =>
        rw [isParent] at bound
        exact isSome_findWithin_mono (grows_add frames frame) (Nat.le_of_lt below) bound

end Binds

end LoopCapture.Frames
