import LoopCapture.Machine.Call
import LoopCapture.Machine.Run
import LoopCapture.Proofs.Simulation.Outcome

/-!
# Single operations that match

Variables, arrays, stamps, the console and the clock: each operation of the machine, used on both
sides with arguments that stand for each other, keeps the machines matching.
-/

set_option autoImplicit false

namespace LoopCapture

/-- The frames of a pair in which code runs, with the kind of the pair and whether the code may use
`arguments`. -/
structure Standing (link : Link) (arguments : Bool) (pairing : Pairing) (e e' : FrameId) : Prop where
  pair : pairing.frames e e' link
  clear : arguments = true → pairing.clear e

instance {link : Link} {arguments : Bool} : Persistent (Standing link arguments) :=
  ⟨fun grows standing => ⟨grows.frames standing.pair, fun used => grows.clear (standing.clear used)⟩⟩

variable {diff : Difference} {side : Side} {returns : Bool} {pairing later : Pairing}
  {link : Link} {arguments : Bool} {e e' : FrameId} {value value' : Value}

theorem Standing.mono (grows : pairing ≤ later) (standing : Standing link arguments pairing e e') :
    Standing link arguments later e e' :=
  Persistent.mono grows standing

/-- Code that does not use `arguments` may run in any pair. -/
theorem Standing.of_pair (pair : pairing.frames e e' link) : Standing link false pairing e e' :=
  ⟨pair, nofun⟩

theorem Standing.visible (standing : Standing link arguments pairing e e') {x : Ident}
    (usable : x.Usable arguments) (isArguments : x.name = "arguments") : pairing.clear e := by
  cases arguments with
  | false => exact absurd isArguments (usable.2 rfl)
  | true => exact standing.clear rfl

namespace ExecMatch

/-! ## Variables -/

theorem getVariable (standing : Standing link arguments pairing e e') {x : Ident}
    (usable : x.Usable arguments) :
    ExecMatch diff side returns (ValueMatch diff) pairing (Exec.getVariable e x.name)
      (Exec.getVariable e' x.name) := by
  have slots : ExecMatch diff side returns (OptionResult (ValueMatch diff)) pairing
      (Exec.read (·.frames.get? e x.name)) (Exec.read (·.frames.get? e' x.name)) :=
    .read fun grows paired => paired.get_match usable.1 (grows.frames standing.pair)
      fun isArguments => grows.clear (standing.visible usable isArguments)
  refine slots.bind fun _ slot slot' both => ?_
  cases both with
  | none => exact .throwText _
  | some values => exact .pure values

theorem getThis (standing : Standing link arguments pairing e e') :
    ExecMatch diff side returns (ValueMatch diff) pairing (Exec.getVariable e "this")
      (Exec.getVariable e' "this") := by
  refine ⟨fun grows paired => ?_⟩
  obtain ⟨value, value', found, found', values⟩ := paired.this_match (grows.frames standing.pair)
  simp only [Exec.getVariable, Exec.read_bind_run, found, found']
  exact .done (Pairing.le_refl _) paired values

theorem setVariable (standing : Standing link arguments pairing e e') {x : Ident}
    (usable : x.Usable arguments) (values : ValueMatch diff pairing value value') :
    ExecMatch diff side returns SameResult pairing (Exec.setVariable e x.name value)
      (Exec.setVariable e' x.name value') := by
  refine ⟨fun {later first second} grows paired => ?_⟩
  have found := paired.find_match usable.1 (grows.frames standing.pair)
    fun isArguments => grows.clear (standing.visible usable isArguments)
  simp only [Exec.setVariable, Exec.read_bind_run]
  generalize first.frames.find? e x.name = owner at found
  generalize second.frames.find? e' x.name = owner' at found
  cases found with
  | absent => exact .stopped (Pairing.le_refl _) paired (.throws _ (.text _))
  | present _ _ _ _ _ owners =>
      exact .done (Pairing.le_refl _) (paired.define usable.1 owners (values.mono grows)) rfl

theorem define (standing : Standing link arguments pairing e e')
    (allowed : diff = .scoping → link ≠ .blank) {name : String} (notThis : name ≠ "this")
    (values : ValueMatch diff pairing value value') :
    ExecMatch diff side returns SameResult pairing (Exec.define e name value)
      (Exec.define e' name value') :=
  .modify fun grows paired =>
    have pair := grows.frames standing.pair
    paired.define notThis (.paired pair (paired.solid pair allowed)) (values.mono grows)

/-! ## Frames -/

theorem newFrame (standing : Standing link arguments pairing e e') (isFunction : Bool) :
    ExecMatch diff side returns (Standing .same arguments) pairing (Exec.newFrame e isFunction)
      (Exec.newFrame e' isFunction) := by
  refine ⟨fun {later first second} grows paired => ?_⟩
  refine .done (later.le_withFrames first.frames.all.size second.frames.all.size .same
    (arguments = true)) (paired.addSame (grows.frames standing.pair) isFunction
      (fun _ => .none) fun used => ?_) ⟨Pairing.withFrames_new .., fun used => .inr ⟨rfl, used⟩⟩
  exact .inr (grows.clear (standing.clear used))

theorem copyFrame (standing : Standing .same arguments pairing e e') :
    ExecMatch diff side returns (Standing .same arguments) pairing (Exec.copyFrame e)
      (Exec.copyFrame e') := by
  refine ⟨fun {later first second} grows paired => ?_⟩
  exact .done (later.le_withFrames first.frames.all.size second.frames.all.size .same
    (arguments = true)) (paired.addCopy (grows.frames standing.pair)
      fun used => grows.clear (standing.clear used))
    ⟨Pairing.withFrames_new .., fun used => .inr ⟨rfl, used⟩⟩

/-- The frame of a block, which is blank if the first side has none. -/
theorem blockFrame (standing : Standing link arguments pairing e e') :
    ExecMatch diff side returns (fun pairing i i' => ∃ link, Standing link arguments pairing i i')
      pairing (Exec.blockFrame diff.rule e) (Exec.blockFrame .block e') := by
  cases diff with
  | wrapping =>
      exact ⟨fun grows paired => ((newFrame standing false).run grows paired).imp fun inners =>
        ⟨.same, inners⟩⟩
  | scoping =>
      refine ⟨fun {later first second} grows paired => ?_⟩
      refine .done (later.le_withFrames e second.frames.all.size .blank False)
        (paired.addBlank rfl (grows.frames standing.pair) false)
        ⟨.blank, Pairing.withFrames_new .., fun used => .inl (grows.clear (standing.clear used))⟩

/-! ## Arrays and functions -/

theorem newArray {items items' : Array Value}
    (values : ValuesMatch diff pairing items.toList items'.toList) :
    ExecMatch diff side returns (ValueMatch diff) pairing (Exec.newArray items)
      (Exec.newArray items') := by
  refine ⟨fun {later first second} grows paired => ?_⟩
  exact .done (later.le_withArray first.arrays.size second.arrays.size)
    (paired.addArray (ValuesMatch.mono grows values)) (.array (.inr ⟨rfl, rfl⟩))

theorem getItems {a a' : ArrayId} (pair : pairing.arrays a a') :
    ExecMatch diff side returns (ItemsMatch diff) pairing (Exec.getItems a)
      (Exec.getItems a') := by
  refine .read fun grows paired => ?_
  obtain ⟨items, items', found, found', values⟩ := paired.array (grows.arrays pair)
  simp only [found, found', Option.getD_some]
  exact values

theorem modifyItems {a a' : ArrayId} (pair : pairing.arrays a a')
    {change change' : Array Value → Array Value}
    (changes : ∀ {later : Pairing}, pairing ≤ later → ∀ items items', ItemsMatch diff later items items' →
      ItemsMatch diff later (change items) (change' items')) :
    ExecMatch diff side returns SameResult pairing (Exec.modifyItems a change)
      (Exec.modifyItems a' change') :=
  .modify fun grows paired => paired.modifyArray (grows.arrays pair) (changes grows)

theorem newStamp : ExecMatch diff side returns (fun pairing => pairing.stamps) pairing Exec.newStamp
    Exec.newStamp :=
  ⟨fun {later first second} _ paired => .done (later.le_withStamp first.stamp second.stamp)
    paired.addStamp (.inr ⟨rfl, rfl⟩)⟩

theorem newFunction {closure closure' : Closure}
    (closures : ClosureMatch diff pairing closure closure') :
    ExecMatch diff side returns (ValueMatch diff) pairing (Exec.newFunction closure)
      (Exec.newFunction closure') :=
  newStamp.bind fun grows _ _ stamps => .pure (.function stamps (closures.mono grows))

/-! ## Texts and the console -/

theorem display (values : ValueMatch diff pairing value value') :
    ExecMatch diff side returns SameResult pairing (Exec.display value) (Exec.display value') := by
  have texts : ExecMatch diff side returns SameResult pairing
      (Exec.read fun machine => value.display machine.arrays)
      (Exec.read fun machine => value'.display machine.arrays) :=
    .read fun grows paired => paired.display (values.mono grows)
  refine texts.bind fun _ answer answer' same => ?_
  obtain rfl := same
  exact .ofFault _

theorem truthy (values : ValueMatch diff pairing value value') :
    ExecMatch diff side returns SameResult pairing (Exec.truthy value) (Exec.truthy value') := by
  unfold Exec.truthy
  rw [values.truthy]
  exact .ofNumber _

theorem throwValue (values : ValueMatch diff pairing value value') :
    ExecMatch diff side returns SameResult pairing (Exec.throwValue value)
      (Exec.throwValue value') := by
  refine (display values).bind fun grows text text' same => ?_
  obtain rfl := same
  exact .stop (.throws _ (values.mono grows))

theorem writeLine (line : String) :
    ExecMatch diff side returns SameResult pairing (Exec.writeLine line) (Exec.writeLine line) :=
  .modify fun _ paired => { paired with lines := by simp only [paired.lines] }

/-! ## The clock -/

/-- Calls that have been put off. -/
structure CallbackMatch (diff : Difference) (pairing : Pairing) (first second : Callback) :
    Prop where
  function : ValueMatch diff pairing first.function second.function
  args : ValuesMatch diff pairing first.args second.args

theorem schedule (delay : Float) {callback callback' : Callback}
    (callbacks : CallbackMatch diff pairing callback callback') :
    ExecMatch diff side returns (ValueMatch diff) pairing (Exec.schedule delay callback)
      (Exec.schedule delay callback') := by
  refine ⟨fun {later first second} grows paired => ?_⟩
  have number : second.clock.count + 1 = first.clock.count + 1 := congrArg (· + 1) paired.count
  refine .done (Pairing.le_refl _) { paired with now := paired.now, count := number, pending := ?_ } ?_
  · refine List.rel_append paired.pending (.cons ?_ .nil)
    exact ⟨by rw [paired.now], number, callbacks.function.mono grows,
      ValuesMatch.mono grows callbacks.args⟩
  · simp only [Clock.schedule, paired.count]
    exact .number _

theorem takeTimer : ExecMatch diff side returns (OptionResult (CallbackMatch diff)) pairing
    Exec.takeTimer Exec.takeTimer := by
  refine ⟨fun {later first second} grows paired => ?_⟩
  have timers := TimerMatch.first? paired.pending
  simp only [Exec.takeTimer, Exec.update, Clock.next?]
  generalize Clock.first? first.clock.pending = taken at timers
  generalize Clock.first? second.clock.pending = taken' at timers
  cases timers with
  | none => exact .done (Pairing.le_refl _) paired .none
  | some both =>
      obtain ⟨timer, rest⟩ := both
      refine .done (Pairing.le_refl _) { paired with now := ?_, count := paired.count, pending := rest }
        (.some ⟨timer.function, timer.args⟩)
      exact congrArg₂ Clock.later paired.now timer.due

end ExecMatch

end LoopCapture
