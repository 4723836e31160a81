import LoopCapture.Proofs.Simulation.Program

/-!
# What can be seen of a run

A run of a program shows the lines it has written and the way it has ended. Values cannot be compared
as such, since frames, arrays and stamps are numbered differently in different runs; what can be seen
of a value is its form, down to any depth of nested arrays.
-/

set_option autoImplicit false

namespace LoopCapture

/-- What can be seen of a value. -/
inductive View where
  | undefined
  | null
  | bool (value : Bool)
  | number (value : Number)
  | text (value : String)
  | array (items : List View)
  /-- An array below the depth in question. -/
  | deep
  | function (isArrow : Bool) (params : List String)
  | builtin (name : String)
  | console

def Value.view (arrays : Arrays) : Nat → Value → View
  | _, .undefined => .undefined
  | _, .null => .null
  | _, .bool value => .bool value
  | _, .number value => .number value
  | _, .text value => .text value
  | 0, .array _ => .deep
  | depth + 1, .array id => .array (((arrays[id]?).getD #[]).toList.map (view arrays depth))
  | _, .function _ closure => .function closure.isArrow closure.params
  | _, .native x => .builtin x.name
  | _, .arrayMethod _ method _ => .builtin method.name
  | _, .functionMethod _ method _ => .builtin method.name
  | _, .console _ => .console

/-- How a run ends. -/
inductive Ending where
  | finished
  /-- An exception that nothing caught, with its text. -/
  | threw (text : String)
  /-- A jump out of the program. -/
  | broke (label : Option String)
  | continued (label : Option String)
  /-- A `return` outside of functions, with what can be seen of its value at each depth. -/
  | returned (value : Nat → View)
  | faulted (fault : Fault)

/-- How a computation has ended; none if it has been cut short. -/
def Outcome.ending? : Outcome Unit → Option Ending
  | .done _ _ => some .finished
  | .stopped (.throws _ text) _ => some (.threw text)
  | .stopped (.jump (.breaks label)) _ => some (.broke label)
  | .stopped (.jump (.continues label)) _ => some (.continued label)
  | .stopped (.jump (.returns value)) machine => some (.returned fun depth => value.view machine.arrays depth)
  | .stopped (.fault fault) _ => some (.faulted fault)
  | .stopped .exhausted _ => none

/-- A program, given enough time, writes some lines and ends in some way. -/
def Program.Ends (scoping : Scoping) (program : Program) (lines : Array String) (ending : Ending) :
    Prop :=
  ∃ fuel, (Exec.runProgram scoping fuel program Machine.initial).machine.lines = lines ∧
    (Exec.runProgram scoping fuel program Machine.initial).ending? = some ending

variable {diff : Difference} {side : Side} {pairing : Pairing} {first second : Machine}

theorem Paired.view (paired : Paired diff pairing first second) (depth : Nat) {value value' : Value}
    (values : ValueMatch diff pairing value value') :
    value'.view second.arrays depth = value.view first.arrays depth := by
  induction depth generalizing value value' with
  | zero =>
      cases values with
      | function _ closures => simp only [Value.view, closures.isArrow, closures.params]
      | _ => simp only [Value.view]
  | succ depth depthIH =>
      cases values with
      | array pair =>
          obtain ⟨items, items', found, found', itemsMatch⟩ := paired.array pair
          have views : items.toList.map (Value.view first.arrays depth) =
              items'.toList.map (Value.view second.arrays depth) := by
            rw [← List.forall₂_eq_eq_eq, List.forall₂_map_left_iff, List.forall₂_map_right_iff]
            exact itemsMatch.imp fun _ _ values => (depthIH values).symm
          simp only [Value.view, found, found', Option.getD_some, views]
      | function _ closures => simp only [Value.view, closures.isArrow, closures.params]
      | _ => simp only [Value.view]

/-- The lines written so far, with the way in which a computation has ended. -/
def Outcome.shown? (outcome : Outcome Unit) : Option (Array String × Ending) :=
  outcome.ending?.map (outcome.machine.lines, ·)

/-- Matching ends cannot be told apart, unless one run has been cut short. -/
theorem OutcomeMatch.shown {returns : Bool} {outcome outcome' : Outcome Unit}
    (outcomes : OutcomeMatch diff side returns SameResult pairing outcome outcome') :
    outcome'.shown? = outcome.shown? ∨ side = .first ∧ outcome.shown? = none ∨
      side = .second ∧ outcome'.shown? = none := by
  cases outcomes with
  | done _ paired _ => exact .inl (by simp only [Outcome.shown?, Outcome.machine, paired.lines]; rfl)
  | stopped _ paired stops =>
      left
      simp only [Outcome.shown?, Outcome.machine, paired.lines]
      cases stops with
      | returns _ values => simp only [Outcome.ending?, paired.view _ values]
      | _ => rfl
  | cutFirst isSide => exact .inr (.inl ⟨isSide, rfl⟩)
  | cutSecond isSide => exact .inr (.inr ⟨isSide, rfl⟩)

theorem Program.ends_iff_shown {scoping : Scoping} {program : Program} {lines : Array String}
    {ending : Ending} : program.Ends scoping lines ending ↔
      ∃ fuel, (Exec.runProgram scoping fuel program Machine.initial).shown? = some (lines, ending) := by
  simp only [Program.Ends, Outcome.shown?, Option.map_eq_some_iff, Prod.mk.injEq]
  constructor
  · rintro ⟨fuel, isLines, isEnding⟩
    exact ⟨fuel, ending, isEnding, isLines, rfl⟩
  · rintro ⟨fuel, _, isEnding, isLines, rfl⟩
    exact ⟨fuel, isLines, isEnding⟩

/-- Where the code fits, wrapping the chosen loops of a program changes nothing that can be seen. -/
theorem Program.ends_wrapLoops {chosen : Loc → Bool} {program : Program}
    (fits : Fits.stmts (.wrapping chosen) (.inFunction true) program.body) (lines : Array String)
    (ending : Ending) :
    program.Ends .block lines ending ↔ (program.wrapLoops chosen).Ends .block lines ending := by
  rw [ends_iff_shown, ends_iff_shown]
  exact Side.exists_fuel_iff (fun fuels => ((runProgram_match fits fuels .initial).run
    (Pairing.le_refl _) Paired.initial).shown) (lines, ending)

end LoopCapture
