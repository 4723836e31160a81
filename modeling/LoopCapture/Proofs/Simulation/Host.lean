import LoopCapture.Proofs.Simulation.Ending

/-!
# Programs under a host

A host runs a program and calls its functions afterwards, as often as it likes. It passes on values of
its own, arrays that it makes, and whatever earlier steps have given. After each step it sees the
answer, the lines written so far and the clock. Where the code fits, the two sides of a simulation
cannot be told apart by any host.
-/

set_option autoImplicit false

namespace LoopCapture

inductive HostValue where
  | undefined
  | null
  | bool (value : Bool)
  | number (value : Number)
  | text (value : String)
  | native (value : Native)
  /-- What an earlier step has given. -/
  | earlier (step : Nat)

/-- A step of a host. -/
inductive HostStep where
  | run
  | call (name : String) (args : List HostValue)
  /-- A new array. -/
  | array (items : List HostValue)

inductive Answer where
  | value (view : Nat → View)
  /-- An exception that nothing caught, with its text. -/
  | threw (text : String) (view : Nat → View)
  | broke (label : Option String)
  | continued (label : Option String)
  | returned (view : Nat → View)
  | faulted (fault : Fault)

/-- What a host sees after a step. -/
structure Sight where
  answer : Answer
  lines : Array String
  now : Float
  count : Nat
  /-- When the calls that have been put off are due, and their numbers. -/
  pending : List (Float × Nat)

/-- The value that a host means, given the values from earlier steps. -/
def HostValue.value (given : List Value) : HostValue → Value
  | .undefined => .undefined
  | .null => .null
  | .bool value => .bool value
  | .number value => .number value
  | .text value => .text value
  | .native x => .native x
  | .earlier step => given[step]?.getD .undefined

def HostStep.perform (scoping : Scoping) (fuel : Nat) (program : Program) (given : List Value) :
    HostStep → Exec Value
  | .run => do
    Exec.runProgram scoping fuel program
    return .undefined
  | .call name args => Exec.callByName scoping fuel name (args.map (·.value given))
  | .array items => Exec.newArray (items.map (·.value given)).toArray

namespace Outcome

/-- The answer that a step has; none if it has been cut short. -/
def answer? : Outcome Value → Option Answer
  | .done value machine => some (.value fun depth => value.view machine.arrays depth)
  | .stopped (.throws value text) machine =>
    some (.threw text fun depth => value.view machine.arrays depth)
  | .stopped (.jump (.breaks label)) _ => some (.broke label)
  | .stopped (.jump (.continues label)) _ => some (.continued label)
  | .stopped (.jump (.returns value)) machine =>
    some (.returned fun depth => value.view machine.arrays depth)
  | .stopped (.fault fault) _ => some (.faulted fault)
  | .stopped .exhausted _ => none

def sight? (outcome : Outcome Value) : Option Sight :=
  outcome.answer?.map fun answer =>
    { answer := answer
      lines := outcome.machine.lines
      now := outcome.machine.clock.now
      count := outcome.machine.clock.count
      pending := outcome.machine.clock.pending.map fun timer => (timer.due, timer.id) }

/-- The value that a step has given to the host: a result, or what came with an exception or a
`return`. -/
def given : Outcome Value → Value
  | .done value _ => value
  | .stopped (.throws value _) _ => value
  | .stopped (.jump (.returns value)) _ => value
  | .stopped _ _ => .undefined

end Outcome

/-- What a host sees after each of its steps; none if one of them has been cut short. Steps go on
after one that has failed. -/
def Program.sights (scoping : Scoping) (fuel : Nat) (program : Program) :
    List HostStep → List Value → Machine → Option (List Sight)
  | [], _, _ => some []
  | step :: steps, given, machine =>
    let outcome := step.perform scoping fuel program given machine
    match outcome.sight? with
    | none => none
    | some sight =>
      (sights scoping fuel program steps (given ++ [outcome.given]) outcome.machine).map (sight :: ·)

/-- A program, given enough time, shows something to a host. -/
def Program.Shows (scoping : Scoping) (program : Program) (steps : List HostStep)
    (sights : List Sight) : Prop :=
  ∃ fuel, program.sights scoping fuel steps [] Machine.initial = some sights

/-! ## Steps that match -/

variable {diff : Difference} {side : Side} {pairing : Pairing} {first second : Machine}
  {given given' : List Value}

theorem HostValue.value_match (both : ValuesMatch diff pairing given given') (value : HostValue) :
    ValueMatch diff pairing (value.value given) (value.value given') := by
  cases value with
  | undefined => exact .undefined
  | null => exact .null
  | bool value => exact .bool value
  | number value => exact .number value
  | text value => exact .text value
  | native value => exact .native value
  | earlier step =>
      have slots := ValuesMatch.getElem? both step
      simp only [HostValue.value]
      generalize given[step]? = slot at slots
      generalize given'[step]? = slot' at slots
      cases slots with
      | none => exact .undefined
      | some values => exact values

theorem HostValue.values_match (both : ValuesMatch diff pairing given given')
    (values : List HostValue) :
    ValuesMatch diff pairing (values.map (·.value given)) (values.map (·.value given')) := by
  rw [ValuesMatch, List.forall₂_map_left_iff, List.forall₂_map_right_iff, List.forall₂_same]
  exact fun value _ => value.value_match both

theorem ExecMatch.getGlobal (global : pairing.Global) {returns : Bool} (name : String) :
    ExecMatch diff side returns (ValueMatch diff) pairing
      (Exec.getVariable Machine.globalFrame name) (Exec.getVariable Machine.globalFrame name) := by
  by_cases isThis : name = "this"
  · subst isThis
    exact .getThis global
  · have usable : Ident.Usable true ⟨name, ⟨0, 0, 0, 0⟩⟩ := ⟨isThis, nofun⟩
    exact .getVariable global usable

/-- After a step that neither side has been cut short in, both sides show the same and go on from
matching machines. -/
theorem OutcomeMatch.sight {outcome outcome' : Outcome Value}
    (outcomes : OutcomeMatch diff side true (ValueMatch diff) pairing outcome outcome') :
    (∃ later, pairing ≤ later ∧ Paired diff later outcome.machine outcome'.machine ∧
      ValueMatch diff later outcome.given outcome'.given ∧ outcome'.sight? = outcome.sight?) ∨
    side = .first ∧ outcome.sight? = none ∨ side = .second ∧ outcome'.sight? = none := by
  -- Equal answers of paired machines are equal sights.
  have seen {later : Pairing} {outcome outcome' : Outcome Value}
      (paired : Paired diff later outcome.machine outcome'.machine)
      (answers : outcome'.answer? = outcome.answer?) : outcome'.sight? = outcome.sight? := by
    have pending : outcome'.machine.clock.pending.map (fun timer => (timer.due, timer.id)) =
        outcome.machine.clock.pending.map fun timer => (timer.due, timer.id) := by
      rw [eq_comm, ← List.forall₂_eq_eq_eq, List.forall₂_map_left_iff, List.forall₂_map_right_iff]
      exact paired.pending.imp fun _ _ timers => by rw [timers.due, timers.id]
    simp only [Outcome.sight?, answers, paired.lines, paired.now, paired.count, pending]
  cases outcomes with
  | done grows paired values =>
      refine .inl ⟨_, grows, paired, values, seen paired ?_⟩
      simp only [Outcome.answer?, paired.view _ values]
  | stopped grows paired stops =>
      refine .inl ⟨_, grows, paired, ?_, seen paired ?_⟩
      · cases stops with
        | throws text values => exact values
        | returns _ values => exact values
        | _ => exact .undefined
      · cases stops with
        | throws text values => simp only [Outcome.answer?, paired.view _ values]
        | returns _ values => simp only [Outcome.answer?, paired.view _ values]
        | _ => rfl
  | cutFirst isSide => exact .inr (.inl ⟨isSide, rfl⟩)
  | cutSecond isSide => exact .inr (.inr ⟨isSide, rfl⟩)

section Fitting

variable {program : Program} (fits : Fits.stmts diff (.inFunction true) program.body)
  {fuel fuel' : Nat} (fuels : side.Fuels fuel fuel')

include fits fuels

theorem HostStep.perform_match (global : pairing.Global)
    (both : ValuesMatch diff pairing given given') (step : HostStep) :
    ExecMatch diff side true (ValueMatch diff) pairing
      (step.perform diff.rule fuel program given)
      (step.perform .block fuel' (program.wrapLoops diff.chosen) given') := by
  cases step with
  | run => exact (runProgram_match fits fuels global).bind_unit fun _ _ _ => .pure .undefined
  | call name args =>
      refine (ExecMatch.getGlobal global name).bind fun grows function function' functions => ?_
      exact (perform_simulates fuels).invoke functions .undefined
        (ValuesMatch.mono grows (HostValue.values_match both args))
  | array items =>
      refine .newArray ?_
      simpa using HostValue.values_match both items

/-- A host sees the same on both sides, unless one has been cut short. -/
theorem Program.sights_match (paired : Paired diff pairing first second) (global : pairing.Global)
    (both : ValuesMatch diff pairing given given') (steps : List HostStep) :
    (program.wrapLoops diff.chosen).sights .block fuel' steps given' second =
        program.sights diff.rule fuel steps given first ∨
      side = .first ∧ program.sights diff.rule fuel steps given first = none ∨
      side = .second ∧
        (program.wrapLoops diff.chosen).sights .block fuel' steps given' second = none := by
  induction steps generalizing pairing first second given given' with
  | nil => exact .inl rfl
  | cons step steps stepsIH =>
      have outcomes := (HostStep.perform_match fits fuels global both step).run
        (Pairing.le_refl _) paired
      rcases outcomes.sight with ⟨later, grows, pairedLater, values, same⟩ | ⟨isSide, cut⟩ |
        ⟨isSide, cut⟩
      · simp only [Program.sights, same]
        cases (step.perform diff.rule fuel program given first).sight? with
        | none => exact .inl rfl
        | some sight =>
            have bothLater := List.rel_append (ValuesMatch.mono grows both) (.cons values .nil)
            rcases stepsIH pairedLater (global.mono grows) bothLater with rest | ⟨isSide, cut⟩ |
              ⟨isSide, cut⟩
            · exact .inl (by rw [rest])
            · exact .inr (.inl ⟨isSide, by rw [cut]; rfl⟩)
            · exact .inr (.inr ⟨isSide, by rw [cut]; rfl⟩)
      · exact .inr (.inl ⟨isSide, by simp only [Program.sights, cut]⟩)
      · exact .inr (.inr ⟨isSide, by simp only [Program.sights, cut]⟩)

end Fitting

/-- Where the code fits, no host can tell the two sides apart. -/
theorem Program.shows_iff {program : Program}
    (fits : Fits.stmts diff (.inFunction true) program.body) (steps : List HostStep)
    (sights : List Sight) :
    program.Shows diff.rule steps sights ↔
      (program.wrapLoops diff.chosen).Shows .block steps sights :=
  Side.exists_fuel_iff (fun fuels => sights_match fits fuels .initial .initial .nil steps) sights

end LoopCapture
