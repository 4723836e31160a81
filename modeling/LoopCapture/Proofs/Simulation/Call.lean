import LoopCapture.Proofs.Simulation.Expression

/-!
# Calls that match

Calls of native functions and methods take the same course on both sides. A call of a function of the
program makes a pair of new frames. From the frame of a function `arguments` means the same on both
sides if the function is no arrow function, if it means the same around the function, or if a
parameter or a `var` declaration gives the function a variable of that name.
-/

set_option autoImplicit false

namespace LoopCapture

variable {diff : Difference} {side : Side} {returns : Bool} {pairing : Pairing}
  {first second : Machine} {link : Link} {arguments : Bool} {e e' : FrameId} {value value' : Value}
  {args args' : List Value}

namespace ExecMatch

/-! ## Native functions -/

theorem delayOf (values : ValueMatch diff pairing value value') :
    ExecMatch diff side returns SameResult pairing (Exec.delayOf value) (Exec.delayOf value') := by
  unfold Exec.delayOf
  rw [values.toNumber]
  refine (ofNumber _).bind fun _ delay delay' same => ?_
  obtain rfl := same
  exact .pure rfl

theorem callNative (native : Native) (both : ValuesMatch diff pairing args args') :
    ExecMatch diff side returns (ValueMatch diff) pairing (Exec.callNative native args)
      (Exec.callNative native args') := by
  cases native with
  | setTimeout =>
      cases both with
      | nil => exact .throwText _
      | cons functions rest =>
          cases rest with
          | nil => exact schedule 0 ⟨functions, .nil⟩
          | cons delays rest =>
              refine (delayOf delays).bind fun grows delay delay' same => ?_
              obtain rfl := same
              exact schedule _ ⟨functions.mono grows, ValuesMatch.mono grows rest⟩
  | string =>
      cases both with
      | nil => exact .pure (.text _)
      | cons values rest =>
          refine (display values).bind fun _ text text' same => ?_
          obtain rfl := same
          exact .pure (.text _)
  | log =>
      have texts : ExecMatch diff side returns (ListResult SameResult) pairing
          (Exec.mapItems (fun _ arg => Exec.display arg) 0 args)
          (Exec.mapItems (fun _ arg => Exec.display arg) 0 args') := by
        refine mapItems (fun _ _ item item' values => ?_) 0 both
        exact display values
      refine texts.bind fun _ texts texts' same => ?_
      obtain rfl : texts' = texts := ListResult.eq_of_same same
      exact (writeLine _).bind_unit fun _ _ _ => .pure .undefined

theorem separator (both : ValuesMatch diff pairing args args') :
    ExecMatch diff side returns SameResult pairing (Exec.separator args)
      (Exec.separator args') := by
  cases both with
  | nil => exact .pure rfl
  | cons values rest =>
      have shown : ExecMatch diff side returns SameResult pairing (Exec.display _)
        (Exec.display _) := display values
      cases values with
      | undefined => exact .pure rfl
      | _ => exact shown

theorem argumentsOf {slot slot' : Option Value} (slots : SlotMatch diff pairing slot slot') :
    ExecMatch diff side returns (ListResult (ValueMatch diff)) pairing (Exec.argumentsOf slot)
      (Exec.argumentsOf slot') := by
  cases slots with
  | none => exact .pure .nil
  | some values =>
      cases values with
      | array pair => exact (getItems pair).bind fun _ items items' both => .pure both
      | _ => exact .pure .nil

end ExecMatch

namespace Simulates

variable {perform perform' : Performer} (sim : Simulates diff side perform perform')

include sim

/-! ## Methods of arrays -/

theorem callEach {α β : Type} {results : Pairing → α → β → Prop} [Persistent results]
    {a a' : ArrayId} (pair : pairing.arrays a a') (both : ValuesMatch diff pairing args args')
    {use : Value → Value → Exec α} {use' : Value → Value → Exec β}
    (uses : ∀ {later : Pairing} {item item' result result' : Value}, pairing ≤ later →
      ValueMatch diff later item item' → ValueMatch diff later result result' →
      ExecMatch diff side returns results later (use item result) (use' item' result')) :
    ExecMatch diff side returns (ListResult results) pairing (Exec.callEach perform a args use)
      (Exec.callEach perform' a' args' use') := by
  refine (ExecMatch.getItems pair).bind fun grows items items' itemsMatch => ?_
  refine ExecMatch.mapItems (fun further index item item' values => ?_) 0 itemsMatch
  have further := Pairing.le_trans grows further
  cases both with
  | nil => exact .stop (.fault .missingCallback)
  | cons functions _ =>
      have callArgs := List.Forall₂.cons values
        (.cons (.number (.int index)) (.cons (.array (further.arrays pair)) .nil))
      refine (sim.invoke (functions.mono further) .undefined callArgs).bind
        fun last result result' values' => ?_
      exact uses (Pairing.le_trans further last) (values.mono last) values'

theorem callArrayMethod (method : ArrayMethod) {a a' : ArrayId} (pair : pairing.arrays a a')
    (both : ValuesMatch diff pairing args args') :
    ExecMatch diff side returns (ValueMatch diff) pairing
      (Exec.callArrayMethod perform method a args) (Exec.callArrayMethod perform' method a' args') := by
  cases method with
  | push =>
      refine (ExecMatch.modifyItems pair fun grows items items' itemsMatch => ?_).bind_unit
        fun grows _ _ => ?_
      · exact itemsMatch.append (ValuesMatch.mono grows both)
      · refine (ExecMatch.getItems (grows.arrays pair)).bind fun _ items items' itemsMatch => ?_
        rw [itemsMatch.size]
        exact .pure (.number _)
  | pop =>
      refine (ExecMatch.getItems pair).bind fun grows items items' itemsMatch => ?_
      refine (ExecMatch.modifyItems (grows.arrays pair) fun _ items items' itemsMatch => ?_).bind_unit
        fun further _ _ => ?_
      · exact itemsMatch.pop
      · exact .pure (itemsMatch.back?.mono further)
  | forEach =>
      have each : ExecMatch diff side returns (ListResult SameResult) pairing _ _ :=
        sim.callEach pair both fun _ _ _ => .pure (rfl : () = ())
      exact each.bind_unit fun _ _ _ => .pure .undefined
  | map =>
      refine (sim.callEach pair both fun _ _ values => .pure values).bind
        fun _ results results' both => ?_
      exact .newArray both
  | filter =>
      have each : ExecMatch diff side returns (ListResult (ListResult (ValueMatch diff))) pairing
          (Exec.callEach perform a args fun item result => do
            return if ← Exec.truthy result then [item] else [])
          (Exec.callEach perform' a' args' fun item result => do
            return if ← Exec.truthy result then [item] else []) := by
        refine sim.callEach pair both fun _ values results => ?_
        refine (ExecMatch.truthy results).bind fun further holds holds' same => .pure ?_
        obtain rfl := same
        split
        · exact .cons (values.mono further) .nil
        · exact .nil
      exact each.bind fun _ results results' both => .newArray (List.rel_flatten both)
  | join =>
      refine (ExecMatch.separator both).bind fun grows between between' same => ?_
      obtain rfl := same
      refine (ExecMatch.getItems (grows.arrays pair)).bind fun {later} _ items items' itemsMatch => ?_
      have texts : ExecMatch diff side returns (ListResult SameResult) later
          (Exec.mapItems (fun _ item => if item.isMissing then return "" else Exec.display item) 0
            items.toList)
          (Exec.mapItems (fun _ item => if item.isMissing then return "" else Exec.display item) 0
            items'.toList) := by
        refine ExecMatch.mapItems (fun _ _ item item' values => ?_) 0 itemsMatch
        rw [values.isMissing]
        split
        · exact .pure rfl
        · exact .display values
      refine texts.bind fun _ texts texts' same => ?_
      obtain rfl : texts' = texts := ListResult.eq_of_same same
      exact .pure (.text _)
  | indexOf =>
      refine (ExecMatch.getItems pair).bind fun grows items items' itemsMatch => ?_
      refine .of_paired fun further paired => ?_
      have targets := ((ValuesMatch.headD both).mono grows).mono further
      rw [paired.findIdx?_strictEquals targets (ValuesMatch.mono further itemsMatch)]
      refine .pure ?_
      split <;> exact .number _

end Simulates

end LoopCapture
