import LoopCapture.Proofs.Machine.ExecLaws
import LoopCapture.Proofs.Simulation.Growth
import LoopCapture.Proofs.Simulation.Lookup
import LoopCapture.Proofs.Simulation.Values

/-!
# Computations that match

Two computations match if they take matching machines to matching ends: to results that stand for
each other, or to stops for the same reason. Bounds on the length of a computation differ on the two
sides, so one side may be cut short: the first one when its ends are carried over to the second
machine, and the other way round.

The rules below follow the way computations are put together: sequences, handlers and repetitions of
matching computations match.
-/

set_option autoImplicit false

namespace LoopCapture

/-- The side whose computations may be cut short. -/
inductive Side where
  | first
  | second

/-- The side that may be cut short has at most as many rounds as the other one. -/
def Side.Rounds : Side → Nat → Nat → Prop
  | .first, fuel, fuel' => fuel ≤ fuel'
  | .second, fuel, fuel' => fuel' ≤ fuel

theorem Side.Rounds.pred {side : Side} {fuel fuel' : Nat}
    (rounds : side.Rounds (fuel + 1) (fuel' + 1)) : side.Rounds fuel fuel' := by
  cases side with
  | first => exact Nat.le_of_succ_le_succ rounds
  | second => exact Nat.le_of_succ_le_succ rounds

/-- Stops for the same reason. A bound that has been reached is no such reason, and `return` is one
only where it may be used. -/
inductive StopMatch (diff : Difference) (returns : Bool) (pairing : Pairing) : Stop → Stop → Prop where
  | breaks (label : Option String) :
      StopMatch diff returns pairing (.jump (.breaks label)) (.jump (.breaks label))
  | continues (label : Option String) :
      StopMatch diff returns pairing (.jump (.continues label)) (.jump (.continues label))
  | returns {value value' : Value} : returns = true → ValueMatch diff pairing value value' →
      StopMatch diff returns pairing (.jump (.returns value)) (.jump (.returns value'))
  | throws {value value' : Value} (text : String) : ValueMatch diff pairing value value' →
      StopMatch diff returns pairing (.throws value text) (.throws value' text)
  | fault (fault : Fault) : StopMatch diff returns pairing (.fault fault) (.fault fault)

theorem StopMatch.mono {diff : Difference} {returns : Bool} {pairing later : Pairing}
    (grows : pairing ≤ later) {stop stop' : Stop}
    (stops : StopMatch diff returns pairing stop stop') :
    StopMatch diff returns later stop stop' := by
  cases stops with
  | breaks label => exact .breaks label
  | continues label => exact .continues label
  | returns allowed values => exact .returns allowed (values.mono grows)
  | throws text values => exact .throws text (values.mono grows)
  | fault fault => exact .fault fault

/-- Ends of two computations that match. -/
inductive OutcomeMatch {α β : Type} (diff : Difference) (side : Side) (returns : Bool)
    (results : Pairing → α → β → Prop) (pairing : Pairing) : Outcome α → Outcome β → Prop where
  | done {later : Pairing} {value : α} {value' : β} {first second : Machine} :
      pairing ≤ later → Paired diff later first second → results later value value' →
      OutcomeMatch diff side returns results pairing (.done value first) (.done value' second)
  | stopped {later : Pairing} {stop stop' : Stop} {first second : Machine} :
      pairing ≤ later → Paired diff later first second →
      StopMatch diff returns later stop stop' →
      OutcomeMatch diff side returns results pairing (.stopped stop first) (.stopped stop' second)
  | cutFirst {first : Machine} {outcome : Outcome β} : side = .first →
      OutcomeMatch diff side returns results pairing (.stopped .exhausted first) outcome
  | cutSecond {second : Machine} {outcome : Outcome α} : side = .second →
      OutcomeMatch diff side returns results pairing outcome (.stopped .exhausted second)

/-- Computations that match, from a pairing on. -/
structure ExecMatch {α β : Type} (diff : Difference) (side : Side) (returns : Bool)
    (results : Pairing → α → β → Prop) (pairing : Pairing) (x : Exec α) (y : Exec β) : Prop where
  run : ∀ {later : Pairing} {first second : Machine}, pairing ≤ later →
    Paired diff later first second →
    OutcomeMatch diff side returns results later (x first) (y second)

/-! ## Results -/

/-- A relation of results that stays true while the machines run. -/
class Persistent {α β : Type} (results : Pairing → α → β → Prop) : Prop where
  mono : ∀ {pairing later : Pairing} {x : α} {y : β}, pairing ≤ later → results pairing x y →
    results later x y

/-- Results that are the same. -/
def SameResult {α : Type} (_ : Pairing) (x y : α) : Prop := y = x

abbrev ListResult {α β : Type} (results : Pairing → α → β → Prop) (pairing : Pairing) :
    List α → List β → Prop :=
  List.Forall₂ (results pairing)

theorem ListResult.eq_of_same {α : Type} {pairing : Pairing} {xs ys : List α}
    (both : ListResult SameResult pairing xs ys) : ys = xs := by
  induction both with
  | nil => rfl
  | cons same _ restIH => rw [restIH, show _ = _ from same]

abbrev OptionResult {α β : Type} (results : Pairing → α → β → Prop) (pairing : Pairing) :
    Option α → Option β → Prop :=
  Option.Rel (results pairing)

instance {diff : Difference} : Persistent (ValueMatch diff) := ⟨fun grows values => values.mono grows⟩

instance {α : Type} : Persistent (@SameResult α) := ⟨fun _ same => same⟩

instance {α β : Type} {results : Pairing → α → β → Prop} [Persistent results] :
    Persistent (ListResult results) :=
  ⟨fun grows both => both.imp fun _ _ h => Persistent.mono grows h⟩

instance {α β : Type} {results : Pairing → α → β → Prop} [Persistent results] :
    Persistent (OptionResult results) where
  mono := by
    intro _ _ _ _ grows both
    cases both with
    | none => exact .none
    | some h => exact .some (Persistent.mono grows h)

variable {α β γ δ : Type} {diff : Difference} {side : Side} {returns : Bool}
  {results : Pairing → α → β → Prop} {others : Pairing → γ → δ → Prop} {pairing later : Pairing}

/-! ## Ends -/

theorem OutcomeMatch.earlier (grows : pairing ≤ later) {outcome : Outcome α} {outcome' : Outcome β}
    (outcomes : OutcomeMatch diff side returns results later outcome outcome') :
    OutcomeMatch diff side returns results pairing outcome outcome' := by
  cases outcomes with
  | done further paired values => exact .done (Pairing.le_trans grows further) paired values
  | stopped further paired stops => exact .stopped (Pairing.le_trans grows further) paired stops
  | cutFirst isSide => exact .cutFirst isSide
  | cutSecond isSide => exact .cutSecond isSide

theorem OutcomeMatch.imp {more : Pairing → α → β → Prop}
    (weaker : ∀ {pairing value value'}, results pairing value value' → more pairing value value')
    {outcome : Outcome α} {outcome' : Outcome β}
    (outcomes : OutcomeMatch diff side returns results pairing outcome outcome') :
    OutcomeMatch diff side returns more pairing outcome outcome' := by
  cases outcomes with
  | done grows paired values => exact .done grows paired (weaker values)
  | stopped grows paired stops => exact .stopped grows paired stops
  | cutFirst isSide => exact .cutFirst isSide
  | cutSecond isSide => exact .cutSecond isSide

/-- A computation that matches at the machines in question, followed by one that always does. -/
theorem OutcomeMatch.bind {x : Exec α} {y : Exec β} {f : α → Exec γ} {g : β → Exec δ}
    {first second : Machine}
    (outcomes : OutcomeMatch diff side returns results pairing (x first) (y second))
    (next : ∀ {later : Pairing}, pairing ≤ later → ∀ value value', results later value value' →
      ExecMatch diff side returns others later (f value) (g value')) :
    OutcomeMatch diff side returns others pairing ((x >>= f) first) ((y >>= g) second) := by
  show OutcomeMatch diff side returns others pairing (Exec.bind x f first) (Exec.bind y g second)
  unfold Exec.bind
  generalize x first = outcome at outcomes
  generalize y second = outcome' at outcomes
  cases outcomes with
  | done grows paired values =>
      exact ((next grows _ _ values).run (Pairing.le_refl _) paired).earlier grows
  | stopped grows paired stops => exact .stopped grows paired stops
  | cutFirst isSide => exact .cutFirst isSide
  | cutSecond isSide => exact .cutSecond isSide

theorem OutcomeMatch.catchReturn {body body' : Exec Unit} {first second : Machine}
    (outcomes : OutcomeMatch diff side true SameResult pairing (body first) (body' second)) :
    OutcomeMatch diff side returns (ValueMatch diff) pairing (Exec.catchReturn body first)
      (Exec.catchReturn body' second) := by
  unfold Exec.catchReturn
  generalize body first = outcome at outcomes
  generalize body' second = outcome' at outcomes
  cases outcomes with
  | done grows paired _ => exact .done grows paired .undefined
  | stopped grows paired stops =>
      cases stops with
      | returns _ values => exact .done grows paired values
      | breaks label => exact .stopped grows paired (.breaks label)
      | continues label => exact .stopped grows paired (.continues label)
      | throws text values => exact .stopped grows paired (.throws text values)
      | fault fault => exact .stopped grows paired (.fault fault)
  | cutFirst isSide => exact .cutFirst isSide
  | cutSecond isSide => exact .cutSecond isSide

theorem OutcomeMatch.iteration (labels : List String) {body body' : Exec Unit}
    {first second : Machine}
    (outcomes : OutcomeMatch diff side returns SameResult pairing (body first) (body' second)) :
    OutcomeMatch diff side returns SameResult pairing (Exec.iteration labels body first)
      (Exec.iteration labels body' second) := by
  unfold Exec.iteration
  generalize body first = outcome at outcomes
  generalize body' second = outcome' at outcomes
  cases outcomes with
  | done grows paired _ => exact .done grows paired rfl
  | stopped grows paired stops =>
      have passed := stops
      cases stops with
      | breaks label =>
          by_cases here : Exec.concerns labels label
          · simpa only [if_pos here] using .done grows paired rfl
          · simpa only [if_neg here] using .stopped grows paired passed
      | continues label =>
          by_cases here : Exec.concerns labels label
          · simpa only [if_pos here] using .done grows paired rfl
          · simpa only [if_neg here] using .stopped grows paired passed
      | _ => exact .stopped grows paired passed
  | cutFirst isSide => exact .cutFirst isSide
  | cutSecond isSide => exact .cutSecond isSide

namespace ExecMatch

variable {x : Exec α} {y : Exec β}

theorem later_of (grows : pairing ≤ later)
    (both : ExecMatch diff side returns results pairing x y) :
    ExecMatch diff side returns results later x y :=
  ⟨fun further paired => both.run (Pairing.le_trans grows further) paired⟩

theorem of_paired (both : ∀ {later : Pairing} {first second : Machine}, pairing ≤ later →
      Paired diff later first second → ExecMatch diff side returns results later x y) :
    ExecMatch diff side returns results pairing x y :=
  ⟨fun grows paired => (both grows paired).run (Pairing.le_refl _) paired⟩

/-! ## Sequences -/

theorem pure [Persistent results] {value : α} {value' : β} (values : results pairing value value') :
    ExecMatch diff side returns results pairing (Pure.pure value) (Pure.pure value') :=
  ⟨fun grows paired => .done (Pairing.le_refl _) paired (Persistent.mono grows values)⟩

theorem bind {f : α → Exec γ} {g : β → Exec δ}
    (both : ExecMatch diff side returns results pairing x y)
    (next : ∀ {later : Pairing}, pairing ≤ later → ∀ value value', results later value value' →
      ExecMatch diff side returns others later (f value) (g value')) :
    ExecMatch diff side returns others pairing (x >>= f) (y >>= g) :=
  ⟨fun grows paired => (both.run grows paired).bind fun further =>
    next (Pairing.le_trans grows further)⟩

/-- Both sides take the same branch. -/
theorem branch {x y : Exec Bool} {f : Bool → Exec γ} {g : Bool → Exec δ}
    (both : ExecMatch diff side returns SameResult pairing x y)
    (no : ∀ {later : Pairing}, pairing ≤ later →
      ExecMatch diff side returns others later (f false) (g false))
    (yes : ∀ {later : Pairing}, pairing ≤ later →
      ExecMatch diff side returns others later (f true) (g true)) :
    ExecMatch diff side returns others pairing (x >>= f) (y >>= g) := by
  refine both.bind fun grows test test' same => ?_
  obtain rfl := same
  cases test' with
  | false => exact no grows
  | true => exact yes grows

/-- A computation whose result is not used. -/
theorem bind_unit {f : α → Exec γ} {g : β → Exec δ}
    (both : ExecMatch diff side returns results pairing x y)
    (next : ∀ {later : Pairing}, pairing ≤ later → ∀ value value',
      ExecMatch diff side returns others later (f value) (g value')) :
    ExecMatch diff side returns others pairing (x >>= f) (y >>= g) :=
  both.bind fun grows value value' _ => next grows value value'

/-- Parts that match only together. -/
theorem bind_nested {ε ζ : Type} {f : α → Exec ε} {g : β → Exec ζ} {h : ε → Exec γ} {k : ζ → Exec δ}
    {middle : Pairing → ε → ζ → Prop}
    (both : ExecMatch diff side returns middle pairing (x >>= f) (y >>= g))
    (next : ∀ {later : Pairing}, pairing ≤ later → ∀ value value', middle later value value' →
      ExecMatch diff side returns others later (h value) (k value')) :
    ExecMatch diff side returns others pairing (x >>= fun value => f value >>= h)
      (y >>= fun value => g value >>= k) := by
  rw [← Exec.bind_assoc, ← Exec.bind_assoc]
  exact both.bind next

theorem stop {reason reason' : Stop} (stops : StopMatch diff returns pairing reason reason') :
    ExecMatch diff side returns results pairing (Exec.stop reason) (Exec.stop reason') :=
  ⟨fun grows paired => .stopped (Pairing.le_refl _) paired (stops.mono grows)⟩

theorem throwText (text : String) :
    ExecMatch diff side returns results pairing (Exec.throwText text) (Exec.throwText text) :=
  .stop (.throws text (.text text))

theorem ofFault (answer : Except Fault α) :
    ExecMatch diff side returns SameResult pairing (Exec.ofFault answer) (Exec.ofFault answer) := by
  cases answer with
  | error fault => exact .stop (.fault fault)
  | ok value => exact .pure rfl

theorem ofNumber (answer : Except NumberFault α) :
    ExecMatch diff side returns SameResult pairing (Exec.ofNumber answer)
      (Exec.ofNumber answer) := by
  cases answer with
  | error fault => exact .stop (.fault (.number fault))
  | ok value => exact .pure rfl

theorem read {view : Machine → α} {view' : Machine → β}
    (views : ∀ {later : Pairing} {first second : Machine}, pairing ≤ later →
      Paired diff later first second → results later (view first) (view' second)) :
    ExecMatch diff side returns results pairing (Exec.read view) (Exec.read view') :=
  ⟨fun grows paired => .done (Pairing.le_refl _) paired (views grows paired)⟩

theorem modify {change change' : Machine → Machine}
    (changes : ∀ {later : Pairing} {first second : Machine}, pairing ≤ later →
      Paired diff later first second → Paired diff later (change first) (change' second)) :
    ExecMatch diff side returns SameResult pairing (Exec.modify change) (Exec.modify change') :=
  ⟨fun grows paired => .done (Pairing.le_refl _) (changes grows paired) rfl⟩

/-! ## Handlers -/

variable {body body' : Exec Unit}

theorem catchThrow {handler handler' : Value → Exec Unit}
    (bodies : ExecMatch diff side returns SameResult pairing body body')
    (handlers : ∀ {later : Pairing}, pairing ≤ later → ∀ value value',
      ValueMatch diff later value value' →
      ExecMatch diff side returns SameResult later (handler value) (handler' value')) :
    ExecMatch diff side returns SameResult pairing (Exec.catchThrow body handler)
      (Exec.catchThrow body' handler') := by
  refine ⟨fun {start first second} grows paired => ?_⟩
  have outcomes := bodies.run grows paired
  unfold Exec.catchThrow
  generalize body first = outcome at outcomes
  generalize body' second = outcome' at outcomes
  cases outcomes with
  | done further paired values => exact .done further paired values
  | stopped further paired stops =>
      have passed := stops
      cases stops with
      | throws text values =>
          have handled := handlers (Pairing.le_trans grows further) _ _ values
          exact (handled.run (Pairing.le_refl _) paired).earlier further
      | _ => exact .stopped further paired passed
  | cutFirst isSide => exact .cutFirst isSide
  | cutSecond isSide => exact .cutSecond isSide

/-- How a stop and a computation after it end together. -/
private def afterStop (reason : Stop) : Outcome Unit → Outcome Unit
  | .done _ machine => .stopped reason machine
  | other => other

theorem andFinally {last last' : Exec Unit}
    (bodies : ExecMatch diff side returns SameResult pairing body body')
    (lasts : ExecMatch diff side returns SameResult pairing last last') :
    ExecMatch diff side returns SameResult pairing (Exec.andFinally body last)
      (Exec.andFinally body' last') := by
  refine ⟨fun {start first second} grows paired => ?_⟩
  have outcomes := bodies.run grows paired
  unfold Exec.andFinally
  generalize body first = outcome at outcomes
  generalize body' second = outcome' at outcomes
  cases outcomes with
  | done further paired values =>
      exact (lasts.run (Pairing.le_trans grows further) paired).earlier further
  | @stopped middle reason reason' first second further paired stops =>
      have ends := lasts.run (Pairing.le_trans grows further) paired
      -- The first stop counts unless the second computation stops as well.
      have ended : OutcomeMatch diff side returns SameResult middle
          (afterStop reason (last first)) (afterStop reason' (last' second)) := by
        generalize last first = outcome at ends
        generalize last' second = outcome' at ends
        cases ends with
        | done last paired _ => exact .stopped last paired (stops.mono last)
        | stopped last paired stops => exact .stopped last paired stops
        | cutFirst isSide => exact .cutFirst isSide
        | cutSecond isSide => exact .cutSecond isSide
      cases stops <;> exact ended.earlier further
  | cutFirst isSide => exact .cutFirst isSide
  | cutSecond isSide => exact .cutSecond isSide

theorem catchBreak (label : Option String)
    (bodies : ExecMatch diff side returns SameResult pairing body body') :
    ExecMatch diff side returns SameResult pairing (Exec.catchBreak label body)
      (Exec.catchBreak label body') := by
  refine ⟨fun {start first second} grows paired => ?_⟩
  have outcomes := bodies.run grows paired
  unfold Exec.catchBreak
  generalize body first = outcome at outcomes
  generalize body' second = outcome' at outcomes
  cases outcomes with
  | done further paired values => exact .done further paired values
  | stopped further paired stops =>
      have passed := stops
      cases stops with
      | breaks target =>
          by_cases here : target = label
          · simpa only [if_pos here] using .done further paired rfl
          · simpa only [if_neg here] using .stopped further paired passed
      | _ => exact .stopped further paired passed
  | cutFirst isSide => exact .cutFirst isSide
  | cutSecond isSide => exact .cutSecond isSide

/-! ## Repetition -/

theorem iteration (labels : List String)
    (bodies : ExecMatch diff side returns SameResult pairing body body') :
    ExecMatch diff side returns SameResult pairing (Exec.iteration labels body)
      (Exec.iteration labels body') :=
  ⟨fun grows paired => (bodies.run grows paired).iteration labels⟩

theorem iterate {states : Pairing → α → β → Prop} [Persistent states]
    {step : α → Exec (Option α)} {step' : β → Exec (Option β)}
    (steps : ∀ {later : Pairing}, pairing ≤ later → ∀ state state', states later state state' →
      ExecMatch diff side returns (OptionResult states) later (step state) (step' state'))
    {fuel fuel' : Nat} (rounds : side.Rounds fuel fuel') {state : α} {state' : β}
    (initial : states pairing state state') :
    ExecMatch diff side returns SameResult pairing (Exec.iterate fuel step state)
      (Exec.iterate fuel' step' state') := by
  refine ⟨fun {start first second} grows paired => ?_⟩
  unfold Exec.iterate
  replace initial : states start state state' := Persistent.mono grows initial
  induction fuel generalizing fuel' start first second state state' with
  | zero =>
      cases side with
      | first => exact .cutFirst rfl
      | second =>
          obtain rfl := Nat.le_zero.mp rounds
          exact .cutSecond rfl
  | succ fuel fuelIH =>
      cases fuel' with
      | zero =>
          cases side with
          | first => exact absurd rounds (Nat.not_succ_le_zero fuel)
          | second => exact .cutSecond rfl
      | succ fuel' =>
          have outcomes := (steps grows _ _ initial).run (Pairing.le_refl _) paired
          unfold Exec.repeatStep
          generalize step state first = outcome at outcomes
          generalize step' state' second = outcome' at outcomes
          cases outcomes with
          | done further paired next =>
              cases next with
              | none => exact .done further paired rfl
              | some next =>
                  exact (fuelIH rounds.pred (Pairing.le_trans grows further) paired next).earlier
                    further
          | stopped further paired stops => exact .stopped further paired stops
          | cutFirst isSide => exact .cutFirst isSide
          | cutSecond isSide => exact .cutSecond isSide

theorem mapItems {items : Pairing → γ → δ → Prop} [Persistent items] [Persistent results]
    {action : Nat → γ → Exec α} {action' : Nat → δ → Exec β}
    (actions : ∀ {later : Pairing}, pairing ≤ later → ∀ index item item', items later item item' →
      ExecMatch diff side returns results later (action index item) (action' index item'))
    (index : Nat) {xs : List γ} {ys : List δ} (both : ListResult items pairing xs ys) :
    ExecMatch diff side returns (ListResult results) pairing (Exec.mapItems action index xs)
      (Exec.mapItems action' index ys) := by
  induction both generalizing index with
  | nil => exact .pure .nil
  | cons head _ restIH =>
      refine (actions (Pairing.le_refl _) index _ _ head).bind fun grows value value' values => ?_
      refine (restIH (index + 1) |>.later_of grows).bind fun further rest rest' rests => ?_
      exact .pure (.cons (Persistent.mono further values) rests)

end ExecMatch

end LoopCapture
