import LoopCapture.Proofs.Simulation.WrappedBody

/-!
# Whole programs

The rules are closed by induction on the bound for the depth of activities. A wrapped body takes five
levels where a body takes one, so the second side needs five times the bound of the first one when
the first may be cut short, and no more than the bound of the first one when the second may.
-/

set_option autoImplicit false

namespace LoopCapture

variable {diff : Difference} {side : Side} {pairing : Pairing} {first second : Machine}
variable {fuel fuel' : Nat}

/-- Bounds under which one side ends when the other one does. -/
def Side.Fuels : Side → Nat → Nat → Prop
  | .first, fuel, fuel' => 5 * fuel ≤ fuel'
  | .second, fuel, fuel' => fuel' ≤ fuel

theorem Side.Fuels.rounds (fuels : side.Fuels fuel fuel') :
    side.Rounds fuel fuel' := by
  cases side with
  | first => exact (Nat.le_mul_of_pos_left fuel (by decide)).trans fuels
  | second => exact fuels

theorem Side.Fuels.inner (fuels : side.Fuels (fuel + 1) fuel') (levels : Nat) (few : levels ≤ 5)
    {inner : Nat} (isInner : fuel' = inner + levels) (some : 0 < levels) :
    side.Fuels fuel inner := by
  cases side with
  | first =>
      have fuels : 5 * (fuel + 1) ≤ fuel' := fuels
      show 5 * fuel ≤ inner
      omega
  | second =>
      have fuels : fuel' ≤ fuel + 1 := fuels
      show inner ≤ fuel
      omega

/-- What one side shows under some bound the other one shows under some bound too, if under matching
bounds they differ only where a side has been cut short. -/
theorem Side.exists_fuel_iff {α : Type} {shown shown' : Nat → Option α}
    (same : ∀ {side : Side} {fuel fuel' : Nat}, side.Fuels fuel fuel' →
      shown' fuel' = shown fuel ∨ side = .first ∧ shown fuel = none ∨
        side = .second ∧ shown' fuel' = none) (result : α) :
    (∃ fuel, shown fuel = some result) ↔ ∃ fuel, shown' fuel = some result := by
  constructor
  · rintro ⟨fuel, isResult⟩
    have fuels : Side.first.Fuels fuel (5 * fuel) := Nat.le_refl _
    rcases same fuels with equal | ⟨_, cut⟩ | ⟨impossible, _⟩
    · exact ⟨5 * fuel, equal.trans isResult⟩
    · cases isResult.symm.trans cut
    · cases impossible
  · rintro ⟨fuel, isResult⟩
    have fuels : Side.second.Fuels fuel fuel := Nat.le_refl _
    rcases same fuels with equal | ⟨impossible, _⟩ | ⟨_, cut⟩
    · exact ⟨fuel, equal.symm.trans isResult⟩
    · cases impossible
    · cases isResult.symm.trans cut

/-- Without any levels a side is always cut short. -/
theorem Simulates.of_zero (zero : side = .first ∧ fuel = 0 ∨ side = .second ∧ fuel' = 0) :
    Simulates diff side (perform diff.rule fuel) (perform .block fuel') := by
  rcases zero with ⟨isSide, rfl⟩ | ⟨isSide, rfl⟩
  · exact
      { eval := fun _ _ => ⟨fun _ _ => .cutFirst isSide⟩
        exec := fun _ _ _ => ⟨fun _ _ => .cutFirst isSide⟩
        invoke := fun _ _ _ => ⟨fun _ _ => .cutFirst isSide⟩
        body := fun _ _ _ _ => ⟨fun _ _ => .cutFirst isSide⟩
        item := fun _ _ _ _ _ _ _ => .cutFirst isSide }
  · exact
      { eval := fun _ _ => ⟨fun _ _ => .cutSecond isSide⟩
        exec := fun _ _ _ => ⟨fun _ _ => .cutSecond isSide⟩
        invoke := fun _ _ _ => ⟨fun _ _ => .cutSecond isSide⟩
        body := fun _ _ _ _ => ⟨fun _ _ => .cutSecond isSide⟩
        item := fun _ _ _ _ _ _ _ => .cutSecond isSide }

/-- Code is carried out with matching ends on both sides. -/
theorem perform_simulates (fuels : side.Fuels fuel fuel') :
    Simulates diff side (perform diff.rule fuel) (perform .block fuel') := by
  induction fuel generalizing fuel' with
  | zero =>
      refine .of_zero ?_
      cases side with
      | first => exact .inl ⟨rfl, rfl⟩
      | second => exact .inr ⟨rfl, Nat.le_zero.mp fuels⟩
  | succ fuel fuelIH =>
      have wrapped (inner : Nat) (isInner : fuel' = inner + 5) :
          Simulates diff side (perform diff.rule fuel) (perform .block inner) :=
        fuelIH (fuels.inner 5 (Nat.le_refl 5) isInner (by decide))
      have few (tooFew : fuel' < 5) : side = .second := by
        cases side with
        | first =>
            have fuels : 5 * (fuel + 1) ≤ fuel' := fuels
            omega
        | second => rfl
      cases fuel' with
      | zero => exact .of_zero (.inr ⟨few (by decide), rfl⟩)
      | succ fuel' =>
          have inner := fuels.inner 1 (by decide) rfl (by decide)
          have sim : Simulates diff side (perform diff.rule fuel) (perform .block fuel') := fuelIH inner
          exact
            { eval := fun standing fits => sim.evalExpr standing fits
              exec := fun labels standing fits => sim.execStmt standing inner.rounds labels fits
              invoke := sim.callValue
              body := fun loc standing fits whole => ⟨fun grows paired =>
                Simulates.wrapped wrapped few paired (grows.frames standing.pair) .plain .none loc fits
                  whole⟩
              item := fun {returns _ _ second _ x _ _ _ _ _} loc paired standing held declarable fits
                  whole => by
                obtain ⟨value, value', found, found', values⟩ := held.frames
                have owned : Entries.get? [(x.name, value')] x.name = some value' := by
                  rw [Entries.get?_cons, if_pos rfl]
                have seen : second.frames.get? _ x.name = some value' :=
                  (Frames.get?_of_find? (Frames.find?_own paired.ordered' found' owned) found').trans
                    owned
                exact Simulates.wrapped wrapped few paired standing.pair
                  (.held declarable found found' values held.unpaired held.unheld) (.some seen) loc fits
                  whole }

/-! ## From the start to the end -/

/-- At the start only the frames of the whole programs are a pair. -/
def Pairing.initial : Pairing where
  frames e e' link := e = Machine.globalFrame ∧ e' = Machine.globalFrame ∧ link = .same
  clear e := e = Machine.globalFrame
  arrays _ _ := False
  stamps _ _ := False

theorem ValueMatch.globals (name : String) :
    SlotMatch diff .initial (Entries.get? Machine.globals name)
      (Entries.get? Machine.globals name) := by
  simp only [Machine.globals, Entries.get?_cons, Entries.get?_nil]
  repeat' split
  · exact .some (.native _)
  · exact .some (.native _)
  · exact .some .undefined
  · exact .some (.number _)
  · exact .some (.number _)
  · exact .some .undefined
  · exact .some (.console _)
  · exact .none

theorem Machine.ordered_initial : Machine.initial.frames.Ordered := by
  intro id frame parent found isParent
  obtain ⟨_, rfl⟩ : id = 0 ∧ ⟨none, true, Machine.globals⟩ = frame := by
    simpa [Frames.frame?, Machine.initial, List.getElem?_singleton] using found
  cases isParent

theorem Paired.initial : Paired diff .initial Machine.initial Machine.initial where
  ordered := Machine.ordered_initial
  ordered' := Machine.ordered_initial
  unique := by
    rintro e e' d d' link k ⟨rfl, rfl, rfl⟩ ⟨rfl, rfl, rfl⟩ _
    exact ⟨rfl, rfl, rfl⟩
  holder := by
    rintro e e' id name ⟨_, _, impossible⟩
    cases impossible
  frame := by
    rintro e e' link ⟨rfl, rfl, rfl⟩
    exact .same rfl rfl (fun name => ValueMatch.globals name) .root
  clear := by
    rintro e rfl
    exact ⟨_, _, ⟨rfl, rfl, rfl⟩, rfl, .inr nofun⟩
  this := by
    rintro e e' link ⟨rfl, rfl, rfl⟩
    rfl
  arraysUnique := nofun
  array := nofun
  arraysSize := Nat.le_refl _
  stampsUnique := nofun
  stamp := nofun
  now := rfl
  count := rfl
  pending := .nil
  lines := rfl

theorem Simulates.runTimers {perform perform' : Performer}
    (sim : Simulates diff side perform perform') (rounds : side.Rounds fuel fuel')
    {returns : Bool} :
    ExecMatch diff side returns SameResult pairing (Exec.runTimers fuel perform)
      (Exec.runTimers fuel' perform') := by
  refine ExecMatch.iterate (fun _ _ _ _ => ?_) rounds (show SameResult pairing () () from rfl)
  refine ExecMatch.takeTimer.bind fun _ taken taken' both => ?_
  cases both with
  | none => exact .pure .none
  | some callbacks =>
      exact (sim.invoke callbacks.function .undefined callbacks.args).bind_unit fun _ _ _ =>
        .pure (.some rfl)

/-- The frames of the whole programs, in which code may use `arguments`. -/
abbrev Pairing.Global (pairing : Pairing) : Prop :=
  Standing .same true pairing Machine.globalFrame Machine.globalFrame

theorem Pairing.Global.initial : Pairing.initial.Global := ⟨⟨rfl, rfl, rfl⟩, fun _ => rfl⟩

/-- Both programs run to matching ends. -/
theorem runProgram_match {program : Program}
    (fits : Fits.stmts diff (.inFunction true) program.body) (fuels : side.Fuels fuel fuel')
    (global : pairing.Global) :
    ExecMatch diff side true SameResult pairing (Exec.runProgram diff.rule fuel program)
      (Exec.runProgram .block fuel' (program.wrapLoops diff.chosen)) := by
  have sim : Simulates diff side (perform diff.rule fuel) (perform .block fuel') :=
    perform_simulates fuels
  refine ⟨fun grows paired => ?_⟩
  have body := sim.execBody paired (grows.frames global.pair) fits fun _ =>
    .inl (grows.clear (global.clear rfl))
  exact body.bind fun _ _ _ _ => sim.runTimers fuels.rounds

end LoopCapture
