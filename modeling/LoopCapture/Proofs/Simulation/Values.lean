import LoopCapture.Machine.Member
import LoopCapture.Machine.Operator
import LoopCapture.Proofs.Machine.DisplayLaws
import LoopCapture.Proofs.Simulation.Pairing

/-!
# What can be seen of values

Values that stand for each other look the same: conversions, texts and operators cannot tell them
apart. Texts of arrays need an argument, since the second machine has more arrays than the first one
and so goes deeper before it gives up.
-/

set_option autoImplicit false

namespace LoopCapture

variable {diff : Difference} {pairing : Pairing} {first second : Machine}

/-! ## Single values -/

namespace ValueMatch

variable {value value' : Value}

theorem isMissing (values : ValueMatch diff pairing value value') :
    value'.isMissing = value.isMissing := by
  cases values <;> rfl

theorem isPrimitive (values : ValueMatch diff pairing value value') :
    value'.isPrimitive = value.isPrimitive := by
  cases values <;> rfl

theorem joinsTexts (values : ValueMatch diff pairing value value') :
    value'.joinsTexts = value.joinsTexts := by
  cases values <;> rfl

theorem typeOf (values : ValueMatch diff pairing value value') : value'.typeOf = value.typeOf := by
  cases values <;> rfl

theorem toNumber (values : ValueMatch diff pairing value value') :
    value'.toNumber = value.toNumber := by
  cases values <;> rfl

theorem truthy (values : ValueMatch diff pairing value value') : value'.truthy = value.truthy := by
  cases values <;> rfl

theorem index? (values : ValueMatch diff pairing value value') : value'.index? = value.index? := by
  cases values <;> rfl

theorem isLength (values : ValueMatch diff pairing value value') :
    Exec.isLength value' = Exec.isLength value := by
  cases values <;> rfl

theorem ofLiteral (literal : Literal) :
    ValueMatch diff pairing (.ofLiteral literal) (.ofLiteral literal) := by
  cases literal with
  | null => exact .null
  | bool value => exact .bool value
  | number value => exact .number value
  | text value => exact .text value

end ValueMatch

/-! ## Lists of values -/

namespace ValuesMatch

variable {values values' : List Value} {value value' : Value}

theorem getElem? (both : ValuesMatch diff pairing values values') (index : Nat) :
    SlotMatch diff pairing values[index]? values'[index]? := by
  induction both generalizing index with
  | nil => exact .none
  | cons head _ restIH =>
      cases index with
      | zero => exact .some head
      | succ index => exact restIH index

theorem headD (both : ValuesMatch diff pairing values values') :
    ValueMatch diff pairing (values.headD .undefined) (values'.headD .undefined) := by
  cases both with
  | nil => exact .undefined
  | cons head _ => exact head

theorem tail (both : ValuesMatch diff pairing values values') :
    ValuesMatch diff pairing values.tail values'.tail := by
  cases both with
  | nil => exact .nil
  | cons _ rest => exact rest

theorem set (both : ValuesMatch diff pairing values values') (index : Nat)
    (new : ValueMatch diff pairing value value') :
    ValuesMatch diff pairing (values.set index value) (values'.set index value') := by
  induction both generalizing index with
  | nil => exact .nil
  | cons head rest restIH =>
      cases index with
      | zero => exact .cons new rest
      | succ index => exact .cons head (restIH index)

theorem replicate (count : Nat) (new : ValueMatch diff pairing value value') :
    ValuesMatch diff pairing (List.replicate count value) (List.replicate count value') := by
  induction count with
  | zero => exact .nil
  | succ count countIH => exact .cons new countIH

theorem getLastD (both : ValuesMatch diff pairing values values') :
    ValueMatch diff pairing (values.getLastD .undefined) (values'.getLastD .undefined) := by
  rw [List.getLastD_eq_getLast?, List.getLastD_eq_getLast?, List.getLast?_eq_getElem?,
    List.getLast?_eq_getElem?, ← both.length_eq]
  have last := getElem? both (values.length - 1)
  generalize values[values.length - 1]? = slot at last
  generalize values'[values.length - 1]? = slot' at last
  cases last with
  | none => exact .undefined
  | some both => exact both

end ValuesMatch

/-- Arrays of values that stand for each other. -/
def ItemsMatch (diff : Difference) (pairing : Pairing) (items items' : Array Value) : Prop :=
  ValuesMatch diff pairing items.toList items'.toList

namespace ItemsMatch

variable {items items' : Array Value} (both : ItemsMatch diff pairing items items')

include both

theorem size : items'.size = items.size :=
  (List.Forall₂.length_eq both).symm

theorem getElem? (index : Nat) : SlotMatch diff pairing items[index]? items'[index]? := by
  have slots := ValuesMatch.getElem? both index
  rwa [Array.getElem?_toList, Array.getElem?_toList] at slots

theorem getD (index : Nat) :
    ValueMatch diff pairing (items[index]?.getD .undefined) (items'[index]?.getD .undefined) := by
  have slots := getElem? both index
  generalize items[index]? = slot at slots
  generalize items'[index]? = slot' at slots
  cases slots with
  | none => exact .undefined
  | some values => exact values

theorem back? : ValueMatch diff pairing (items.back?.getD .undefined)
    (items'.back?.getD .undefined) := by
  unfold Array.back?
  rw [both.size]
  exact getD both _

theorem pop : ItemsMatch diff pairing items.pop items'.pop := by
  unfold ItemsMatch
  rw [Array.toList_pop, Array.toList_pop, List.dropLast_eq_take, List.dropLast_eq_take,
    List.Forall₂.length_eq both]
  exact List.forall₂_take _ both

theorem append {values values' : List Value} (new : ValuesMatch diff pairing values values') :
    ItemsMatch diff pairing (items ++ values.toArray) (items' ++ values'.toArray) := by
  unfold ItemsMatch
  rw [Array.toList_append, Array.toList_append]
  exact List.rel_append both new

theorem setItem (index : Nat) {value value' : Value} (new : ValueMatch diff pairing value value') :
    ItemsMatch diff pairing (Exec.setItem items index value) (Exec.setItem items' index value') := by
  unfold ItemsMatch Exec.setItem
  rw [Array.toList_setIfInBounds, Array.toList_setIfInBounds, Array.toList_append,
    Array.toList_append, Array.toList_replicate, Array.toList_replicate, both.size]
  exact ValuesMatch.set (List.rel_append both (ValuesMatch.replicate _ .undefined)) index new

theorem shorten (length : Int) :
    ItemsMatch diff pairing (Exec.shorten items length) (Exec.shorten items' length) := by
  unfold ItemsMatch Exec.shorten
  rw [both.size]
  split <;> simpa using List.forall₂_take _ both

end ItemsMatch

/-! ## Texts -/

/-- To the same depth the texts agree, whatever the machines. -/
theorem Paired.displayWithin (paired : Paired diff pairing first second) (depth : Nat)
    {value value' : Value} (values : ValueMatch diff pairing value value') :
    value'.displayWithin second.arrays depth = value.displayWithin first.arrays depth := by
  induction depth generalizing value value' with
  | zero => cases values <;> simp only [Value.displayWithin]
  | succ depth depthIH =>
      cases values with
      | array pair =>
          obtain ⟨items, items', found, found', itemsMatch⟩ := paired.array pair
          refine (Value.displayWithin_array_eq ?_).symm
          rw [found, found']
          exact itemsMatch.imp fun item item' h => ⟨h.isMissing.symm, (depthIH h).symm⟩
      | _ => simp only [Value.displayWithin]

/-- Arrays in a pair hold arrays in pairs only. -/
theorem Paired.closedArrays (paired : Paired diff pairing first second) :
    ClosedArrays first.arrays fun a => ∃ a', pairing.arrays a a' where
  inRange := by
    rintro a ⟨a', pair⟩
    obtain ⟨_, _, found, _⟩ := paired.array pair
    exact (Array.getElem?_eq_some_iff.mp found).1
  items := by
    rintro a b ⟨a', pair⟩ inItems
    obtain ⟨items, items', found, _, itemsMatch⟩ := paired.array pair
    rw [found] at inItems
    obtain ⟨index, atIndex⟩ := List.mem_iff_getElem?.mp inItems
    have slots := ValuesMatch.getElem? itemsMatch index
    rw [show items.toList[index]? = some (.array b) from atIndex] at slots
    obtain ⟨_, _, values⟩ := slots.of_some
    cases values with
    | array other => exact ⟨_, other⟩

theorem Paired.display (paired : Paired diff pairing first second) {value value' : Value}
    (values : ValueMatch diff pairing value value') :
    value'.display second.arrays = value.display first.arrays := by
  have isKnown : ∀ a, value = .array a → ∃ a', pairing.arrays a a' := by
    rintro a rfl
    cases values with
    | array pair => exact ⟨_, pair⟩
  calc value'.display second.arrays
      = value.displayWithin first.arrays second.arrays.size := paired.displayWithin _ values
    _ = value.display first.arrays :=
      paired.closedArrays.displayWithin_of_size_le paired.arraysSize isKnown

/-! ## Comparisons and operators -/

private theorem beq_eq_beq_of_iff {a b a' b' : Nat} (together : a = b ↔ a' = b') :
    (a' == b') = (a == b) := by
  rw [Bool.eq_iff_iff, beq_iff_eq, beq_iff_eq, together]

section Operands

variable (paired : Paired diff pairing first second) {a a' b b' : Value}
  (left : ValueMatch diff pairing a a') (right : ValueMatch diff pairing b b')

include paired left right

theorem Paired.strictEquals : a'.strictEquals b' = a.strictEquals b := by
  cases left with
  | array pair =>
      cases right with
      | array other => exact beq_eq_beq_of_iff (paired.arraysUnique pair other)
      | _ => rfl
  | function pair _ =>
      cases right with
      | function other _ => exact beq_eq_beq_of_iff (paired.stampsUnique pair other)
      | _ => rfl
  | arrayMethod _ pair _ =>
      cases right with
      | arrayMethod _ other _ => exact beq_eq_beq_of_iff (paired.stampsUnique pair other)
      | _ => rfl
  | functionMethod _ pair _ =>
      cases right with
      | functionMethod _ other _ => exact beq_eq_beq_of_iff (paired.stampsUnique pair other)
      | _ => rfl
  | _ => cases right <;> rfl

theorem Paired.looseEquals : a'.looseEquals b' = a.looseEquals b := by
  simp only [Value.looseEquals, left.isMissing, right.isMissing, left.typeOf, right.typeOf,
    left.isPrimitive, right.isPrimitive, left.toNumber, right.toNumber,
    paired.strictEquals left right]

theorem Paired.equality (op : EqualOp) : Value.equality op a' b' = Value.equality op a b := by
  cases op <;>
    simp only [Value.equality, paired.strictEquals left right, paired.looseEquals left right]

omit paired in
theorem ValueMatch.order (op : OrderOp) : Value.order op a' b' = Value.order op a b := by
  have numbers := left.toNumber
  have numbers' := right.toNumber
  cases left <;> cases right <;> simp only [Value.order, numbers, numbers']

omit left in
theorem Paired.findIdx?_strictEquals {values values' : List Value}
    (both : ValuesMatch diff pairing values values') :
    values'.findIdx? (·.strictEquals b') = values.findIdx? (·.strictEquals b) := by
  induction both with
  | nil => rfl
  | cons head _ restIH =>
      rw [List.findIdx?_cons, List.findIdx?_cons, paired.strictEquals head right, restIH]

omit paired left right in
theorem ValueMatch.of_binary {arrays : Arrays} {op : BinaryOp} {result : Value}
    (answer : Value.binary arrays op a b = .ok result) : ValueMatch diff pairing result result := by
  cases op with
  | arith op =>
      simp only [Value.binary, Value.arith] at answer
      split at answer
      · cases shown : a.display arrays with
        | error _ => simp [shown, bind, Except.bind] at answer
        | ok text =>
            cases shown' : b.display arrays with
            | error _ => simp [shown, shown', bind, Except.bind] at answer
            | ok text' =>
                simp only [shown, shown', bind, Except.bind, pure, Except.pure] at answer
                exact Except.ok.inj answer ▸ .text _
      · cases sum : op.onNumbers a.toNumber b.toNumber with
        | error _ => simp [sum, Except.mapError] at answer
        | ok number =>
            simp only [sum, Functor.map, Except.map, Except.mapError] at answer
            exact Except.ok.inj answer ▸ .number _
  | order op =>
      simp only [Value.binary] at answer
      cases holds : Value.order op a b with
      | error _ => simp [holds, Except.mapError] at answer
      | ok truth =>
          simp only [holds, Functor.map, Except.map, Except.mapError] at answer
          exact Except.ok.inj answer ▸ .bool _
  | equal op => exact Except.ok.inj answer ▸ .bool _

theorem Paired.binary (op : BinaryOp) :
    Value.binary second.arrays op a' b' = Value.binary first.arrays op a b := by
  cases op with
  | arith op =>
      simp only [Value.binary, Value.arith, left.joinsTexts, right.joinsTexts,
        paired.display left, paired.display right, left.toNumber, right.toNumber]
  | order op => simp only [Value.binary, left.order right op]
  | equal op => simp only [Value.binary, paired.equality left right op]

end Operands

end LoopCapture
