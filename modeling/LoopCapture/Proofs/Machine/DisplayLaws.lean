import LoopCapture.Machine.Convert
import Mathlib.Data.Finset.Card
import Mathlib.Data.Finset.Filter
import Mathlib.Data.Finset.Range
import Mathlib.Data.List.Forall2

/-!
# Texts of nested arrays

The text of a value is computed down to a depth. Going deeper changes an answer only if the answer
was that the arrays are nested too deep. With as many levels as there are arrays nothing changes any
more: each further level on which something changes gives an answer for one more array.
-/

set_option autoImplicit false

namespace LoopCapture

namespace Value

variable {arrays arrays' : Arrays}

/-! ## One level -/

private theorem mapM_eq_of_forall₂ {α β : Type} {f : α → Except Fault String}
    {g : β → Except Fault String} {xs : List α} {ys : List β}
    (pointwise : List.Forall₂ (fun x y => f x = g y) xs ys) : xs.mapM f = ys.mapM g := by
  induction pointwise with
  | nil => rfl
  | cons same _ restIH => rw [List.mapM_cons, List.mapM_cons, same, restIH]

private theorem mapM_eq_of_ne_error {f g : Value → Except Fault String} {refused : Fault}
    {xs : List Value} (pointwise : ∀ x ∈ xs, f x ≠ .error refused → g x = f x)
    (answered : xs.mapM f ≠ .error refused) : xs.mapM g = xs.mapM f := by
  induction xs with
  | nil => rfl
  | cons x xs restIH =>
      rw [List.mapM_cons] at answered
      rw [List.mapM_cons, List.mapM_cons]
      cases result : f x with
      | error fault =>
          have answeredHere : f x ≠ .error refused := by
            rw [result] at answered ⊢
            exact fun same => answered (by rw [Except.error.inj same]; rfl)
          rw [pointwise x List.mem_cons_self answeredHere, result]
          rfl
      | ok text =>
          rw [pointwise x List.mem_cons_self (by rw [result]; exact nofun), result]
          have restAnswered : xs.mapM f ≠ .error refused := by
            intro same
            rw [result, same] at answered
            exact answered rfl
          rw [restIH (fun y inRest => pointwise y (List.mem_cons_of_mem x inRest)) restAnswered]

/-- The texts of two arrays agree if those of their items do. -/
theorem displayWithin_array_eq {a a' : ArrayId} {depth depth' : Nat}
    (pointwise : List.Forall₂
      (fun item item' => item.isMissing = item'.isMissing ∧
        displayWithin arrays depth item = displayWithin arrays' depth' item')
      ((arrays[a]?).getD #[]).toList ((arrays'[a']?).getD #[]).toList) :
    displayWithin arrays (depth + 1) (.array a) = displayWithin arrays' (depth' + 1) (.array a') := by
  simp only [displayWithin]
  rw [mapM_eq_of_forall₂ (pointwise.imp fun item item' h => by rw [h.1, h.2])]

theorem displayWithin_of_not_array {value : Value} (noArray : ∀ id, value ≠ .array id)
    (depth depth' : Nat) : displayWithin arrays depth value = displayWithin arrays depth' value := by
  cases value with
  | array id => exact absurd rfl (noArray id)
  | _ => simp only [displayWithin]

/-- One more level keeps every other answer than that the arrays are nested too deep. -/
theorem displayWithin_succ {depth : Nat} {value : Value}
    (answered : displayWithin arrays depth value ≠ .error .nesting) :
    displayWithin arrays (depth + 1) value = displayWithin arrays depth value := by
  induction depth generalizing value with
  | zero =>
      cases value with
      | array id => exact absurd (by simp only [displayWithin]) answered
      | _ => simp only [displayWithin]
  | succ depth depthIH =>
      cases value with
      | array id =>
          simp only [displayWithin] at answered ⊢
          have itemsAnswered : ((arrays[id]?).getD #[]).toList.mapM (fun item =>
              if item.isMissing then .ok "" else displayWithin arrays depth item) ≠
              .error .nesting := by
            intro refused
            rw [refused] at answered
            exact answered rfl
          rw [mapM_eq_of_ne_error (fun item _ itemAnswered => ?_) itemsAnswered]
          split at itemAnswered
          · rename_i missing
            rw [if_pos missing, if_pos missing]
          · rename_i present
            rw [if_neg present, if_neg present, depthIH itemAnswered]
      | _ => simp only [displayWithin]

end Value

/-! ## Enough levels -/

/-- Arrays, given by number, that hold no other arrays than such ones. -/
structure ClosedArrays (arrays : Arrays) (known : ArrayId → Prop) : Prop where
  inRange : ∀ {a : Nat}, known a → a < arrays.size
  items : ∀ {a b : ArrayId}, known a → .array b ∈ ((arrays[a]?).getD #[]).toList → known b

namespace ClosedArrays

open Value

variable {arrays : Arrays} {known : ArrayId → Prop}

/-- If the next level changes nothing, neither does the one after it. -/
theorem stable_succ (closed : ClosedArrays arrays known) {depth : Nat}
    (stable : ∀ a, known a →
      displayWithin arrays (depth + 1) (.array a) = displayWithin arrays depth (.array a)) :
    ∀ a, known a →
      displayWithin arrays (depth + 2) (.array a) = displayWithin arrays (depth + 1) (.array a) := by
  intro a isKnown
  refine displayWithin_array_eq (List.forall₂_same.mpr fun item inItems => ⟨rfl, ?_⟩)
  cases item with
  | array b => exact stable b (closed.items isKnown inItems)
  | _ => exact displayWithin_of_not_array (by simp) _ _

open Classical in
/-- The arrays whose text needs more levels. -/
private noncomputable def stuck (arrays : Arrays) (known : ArrayId → Prop) (depth : Nat) :
    Finset Nat :=
  (Finset.range arrays.size).filter fun a =>
    known a ∧ displayWithin arrays depth (.array a) = .error .nesting

open Classical in
private theorem mem_stuck {depth a : Nat} : a ∈ stuck arrays known depth ↔ a < arrays.size ∧
    known a ∧ displayWithin arrays depth (.array a) = .error .nesting := by
  rw [stuck, Finset.mem_filter, Finset.mem_range]

open Classical in
private theorem card_stuck_le (depth : Nat) : (stuck arrays known depth).card ≤ arrays.size :=
  (Finset.card_filter_le _ _).trans_eq (Finset.card_range _)

private theorem stuck_succ_ssubset (closed : ClosedArrays arrays known) {depth : Nat}
    (unstable : ¬ ∀ a, known a →
      displayWithin arrays (depth + 1) (.array a) = displayWithin arrays depth (.array a)) :
    stuck arrays known (depth + 1) ⊂ stuck arrays known depth := by
  rw [not_forall] at unstable
  obtain ⟨a, changed⟩ := unstable
  rw [Classical.not_imp] at changed
  obtain ⟨isKnown, changed⟩ := changed
  rw [Finset.ssubset_iff_of_subset]
  · refine ⟨a, ?_, ?_⟩
    · refine mem_stuck.mpr ⟨closed.inRange isKnown, isKnown, ?_⟩
      by_contra answered
      exact changed (displayWithin_succ answered)
    · intro stuckHere
      obtain ⟨_, _, refused⟩ := mem_stuck.mp stuckHere
      by_cases before : displayWithin arrays depth (.array a) = .error .nesting
      · exact changed (refused.trans before.symm)
      · exact changed (displayWithin_succ before)
  · intro b stuckHere
    obtain ⟨inRange, isKnown, refused⟩ := mem_stuck.mp stuckHere
    refine mem_stuck.mpr ⟨inRange, isKnown, ?_⟩
    by_contra answered
    exact answered (displayWithin_succ answered ▸ refused)

/-- Up to any depth, the next level changes nothing, or each level so far has settled an array. -/
private theorem stable_or_card_stuck_le (closed : ClosedArrays arrays known) (depth : Nat) :
    (∀ a, known a →
      displayWithin arrays (depth + 1) (.array a) = displayWithin arrays depth (.array a)) ∨
    (stuck arrays known (depth + 1)).card + (depth + 1) ≤ arrays.size := by
  by_cases stable : ∀ a, known a →
      displayWithin arrays (depth + 1) (.array a) = displayWithin arrays depth (.array a)
  · exact .inl stable
  · have fewer := Finset.card_lt_card (stuck_succ_ssubset closed stable)
    refine .inr ?_
    induction depth with
    | zero =>
        have all : (stuck arrays known 0).card ≤ arrays.size := card_stuck_le 0
        omega
    | succ depth depthIH =>
        have earlier : ¬ ∀ a, known a →
            displayWithin arrays (depth + 1) (.array a) = displayWithin arrays depth (.array a) :=
          fun stableBefore => stable (closed.stable_succ stableBefore)
        have := depthIH earlier (Finset.card_lt_card (stuck_succ_ssubset closed earlier))
        omega

theorem stable_size (closed : ClosedArrays arrays known) :
    ∀ a, known a → displayWithin arrays (arrays.size + 1) (.array a) =
      displayWithin arrays arrays.size (.array a) := by
  refine (closed.stable_or_card_stuck_le arrays.size).resolve_right ?_
  omega

/-- As many levels as there are arrays are enough. -/
theorem displayWithin_of_size_le (closed : ClosedArrays arrays known) {depth : Nat}
    (deep : arrays.size ≤ depth) {value : Value} (isKnown : ∀ a, value = .array a → known a) :
    displayWithin arrays depth value = value.display arrays := by
  cases value with
  | array a =>
      suffices stable : ∀ b, known b →
          displayWithin arrays (depth + 1) (.array b) = displayWithin arrays depth (.array b) ∧
          displayWithin arrays depth (.array b) = displayWithin arrays arrays.size (.array b) from
        (stable a (isKnown a rfl)).2
      induction depth, deep using Nat.le_induction with
      | base => exact fun b knownB => ⟨closed.stable_size b knownB, rfl⟩
      | succ depth _ depthIH =>
          intro b knownB
          obtain ⟨next, settled⟩ := depthIH b knownB
          exact ⟨closed.stable_succ (fun c knownC => (depthIH c knownC).1) b knownB,
            next.trans settled⟩
  | _ => exact displayWithin_of_not_array (by simp) _ _

end ClosedArrays

end LoopCapture
