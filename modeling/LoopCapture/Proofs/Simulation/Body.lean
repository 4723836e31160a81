import LoopCapture.Proofs.Simulation.Call
import LoopCapture.Proofs.Wrapped.Hoisting

/-!
# Bodies of functions and blocks

What happens between the call of a function and its first statement: the function gets a frame, its
parameters and the names of its `var` declarations become variables of that frame.
-/

set_option autoImplicit false

namespace LoopCapture

/-- The machine at the start of a call. The function has a frame, and unless it is an arrow function
it has `this` and `arguments`. -/
def Closure.enter (closure : Closure) (this : Value) (args : List Value) (machine : Machine) :
    Machine :=
  if closure.isArrow then
    { machine with frames := (machine.frames.add ⟨some closure.frame, true, []⟩).1 }
  else
    { machine with
      frames := (machine.frames.add ⟨some closure.frame, true,
        [("this", this), ("arguments", .array machine.arrays.size)]⟩).1
      arrays := machine.arrays.push args.toArray }

namespace Exec

/-- The rest of a call in the frame of the function. -/
def finishCall (scoping : Scoping) (perform : Performer) (closure : Closure) (args : List Value)
    (frame : FrameId) : Exec Value := do
  bindParams frame closure.params args
  match closure.body with
  | .expr value => perform.eval value frame
  | .block body => catchReturn (execBody scoping perform frame body.body)

theorem callClosure_run (scoping : Scoping) (perform : Performer) (closure : Closure) (this : Value)
    (args : List Value) (machine : Machine) :
    callClosure scoping perform closure this args machine =
      finishCall scoping perform closure args machine.frames.all.size
        (closure.enter this args machine) := by
  have two : (((machine.frames.add ⟨some closure.frame, true, []⟩).1.define machine.frames.all.size
      "this" this).define machine.frames.all.size "arguments" (.array machine.arrays.size)) =
      (machine.frames.add ⟨some closure.frame, true,
        [("this", this), ("arguments", .array machine.arrays.size)]⟩).1 := by
    rw [Frames.define_add, Frames.define_add]
    rfl
  cases isArrow : closure.isArrow with
  | true =>
      simp only [callClosure, Closure.enter, isArrow]
      rfl
  | false =>
      simp only [callClosure, Closure.enter, isArrow, ← two]
      rfl

end Exec

variable {diff : Difference} {side : Side} {returns : Bool} {pairing : Pairing}
  {first second : Machine} {link : Link} {arguments : Bool} {e e' : FrameId} {value value' : Value}
  {args args' : List Value}

/-! ## The frame of a function -/

theorem Paired.enter (paired : Paired diff pairing first second) {closure closure' : Closure}
    (closures : ClosureMatch diff pairing closure closure') {this this' : Value}
    (thisMatch : ValueMatch diff pairing this this') (both : ValuesMatch diff pairing args args') :
    ∃ later, pairing ≤ later ∧
      Paired diff later (closure.enter this args first) (closure'.enter this' args' second) ∧
      later.frames first.frames.all.size second.frames.all.size .same ∧
      (closure.isArrow = false ∨ pairing.clear closure.frame → later.clear first.frames.all.size) := by
  obtain ⟨link, pair⟩ := closures.frames
  unfold Closure.enter
  rw [closures.isArrow]
  cases closure.isArrow with
  | true =>
      refine ⟨pairing.withFrames first.frames.all.size second.frames.all.size .same
        (pairing.clear closure.frame), Pairing.le_withFrames .., ?_, Pairing.withFrames_new .., ?_⟩
      · exact paired.addSame pair true (fun _ => .none) .inr
      · rintro (impossible | isClear)
        · cases impossible
        · exact .inr ⟨rfl, isClear⟩
  | false =>
      let middle := pairing.withArray first.arrays.size second.arrays.size
      have grows : pairing ≤ middle := Pairing.le_withArray ..
      refine ⟨middle.withFrames first.frames.all.size second.frames.all.size .same True,
        Pairing.le_trans grows (Pairing.le_withFrames ..), ?_, Pairing.withFrames_new ..,
        fun _ => .inr ⟨rfl, trivial⟩⟩
      refine (paired.addArray both).addSame (grows.frames pair) true (fun name => ?_) fun _ => .inl rfl
      simp only [Entries.get?_cons, Entries.get?_nil]
      split
      · exact .some (thisMatch.mono grows)
      · split
        · exact .some (.array (.inr ⟨rfl, rfl⟩))
        · exact .none

theorem Paired.owns (paired : Paired diff pairing first second) (pair : pairing.frames e e' .same)
    (name : String) : second.frames.owns e' name = first.frames.owns e name := by
  cases paired.frame pair with
  | @same frame frame' found found' slots _ =>
      have both := slots name
      simp only [Frames.owns, found, found', Option.any_some, Entries.has]
      generalize frame.slots.get? name = slot at both
      generalize frame'.slots.get? name = slot' at both
      cases both with
      | none => rfl
      | some _ => rfl

theorem Paired.owns_define_self (paired : Paired diff pairing first second)
    (pair : pairing.frames e e' .same) (name : String) (value : Value) :
    (first.frames.define e name value).owns e name = true := by
  cases paired.frame pair with
  | same found _ _ _ => exact Frames.owns_define_self found name value

/-- Both machines have gone on, and the frame on the first side has variables of its own for some
names beside those it had. -/
structure Declared (diff : Difference) (pairing : Pairing) (first : Machine) (e : FrameId)
    (names : List String) (after after' : Machine) : Prop where
  paired : Paired diff pairing after after'
  owned : ∀ name, first.frames.owns e name = true ∨ name ∈ names → after.frames.owns e name = true

theorem Declared.cons {middle after after' : Machine} {name : String} {names : List String}
    (kept : ∀ other, first.frames.owns e other = true → middle.frames.owns e other = true)
    (own : middle.frames.owns e name = true)
    (declared : Declared diff pairing middle e names after after') :
    Declared diff pairing first e (name :: names) after after' where
  paired := declared.paired
  owned := by
    rintro other (owned | listed)
    · exact declared.owned other (.inl (kept other owned))
    · rcases List.mem_cons.mp listed with rfl | inRest
      · exact declared.owned other (.inl own)
      · exact declared.owned other (.inr inRest)

theorem Paired.bindParams (paired : Paired diff pairing first second)
    (pair : pairing.frames e e' .same) {params : List String} (names : ∀ name ∈ params, name ≠ "this")
    (both : ValuesMatch diff pairing args args') :
    ∃ after after', Exec.bindParams e params args first = .done () after ∧
      Exec.bindParams e' params args' second = .done () after' ∧
      Declared diff pairing first e params after after' := by
  induction params generalizing first second args args' with
  | nil => exact ⟨first, second, rfl, rfl, paired, fun name owned => owned.resolve_right nofun⟩
  | cons name params paramsIH =>
      have defined := paired.define (names name List.mem_cons_self) (.paired pair nofun)
        (ValuesMatch.headD both)
      obtain ⟨after, after', run, run', declared⟩ := paramsIH defined
        (fun other inRest => names other (List.mem_cons_of_mem name inRest)) (ValuesMatch.tail both)
      exact ⟨after, after', run, run',
        .cons (fun other owned => Frames.owns_define owned e name _)
          (paired.owns_define_self pair name _) declared⟩

theorem Paired.declareNames (paired : Paired diff pairing first second)
    (pair : pairing.frames e e' .same) {declaredNames : List String}
    (names : ∀ name ∈ declaredNames, name ≠ "this") :
    ∃ after after', Exec.declareNames e declaredNames first = .done () after ∧
      Exec.declareNames e' declaredNames second = .done () after' ∧
      Declared diff pairing first e declaredNames after after' := by
  induction declaredNames generalizing first second with
  | nil => exact ⟨first, second, rfl, rfl, paired, fun name owned => owned.resolve_right nofun⟩
  | cons name rest restIH =>
      have restNames : ∀ other ∈ rest, other ≠ "this" :=
        fun other inRest => names other (List.mem_cons_of_mem name inRest)
      have same := paired.owns pair name
      simp only [Exec.declareNames, Exec.read_bind_run]
      rw [same]
      cases owned : first.frames.owns e name with
      | true =>
          obtain ⟨after, after', run, run', declared⟩ := restIH paired restNames
          exact ⟨after, after', run, run', .cons (fun _ => id) owned declared⟩
      | false =>
          have defined := paired.define (names name List.mem_cons_self) (.paired pair nofun) .undefined
          obtain ⟨after, after', run, run', declared⟩ := restIH defined restNames
          exact ⟨after, after', run, run',
            .cons (fun other owned => Frames.owns_define owned e name _)
              (paired.owns_define_self pair name _) declared⟩

/-! ## Statements in order -/

/-- Declared functions become variables of both frames; for a blank frame there are none. -/
theorem ExecMatch.declareFunctions {position : Position} (pair : pairing.frames e e' link)
    {body : List Stmt} (plain : link = .blank → diff.Plain body)
    (fits : Fits.stmts diff position body) :
    ExecMatch diff side returns SameResult pairing (Exec.declareFunctions e body)
      (Exec.declareFunctions e' (WrapLoops.stmts diff.chosen body)) := by
  induction body generalizing pairing with
  | nil => exact .pure rfl
  | cons stmt rest restIH =>
      obtain ⟨fitsHere, fitsRest⟩ := fits
      have plainRest : link = .blank → diff.Plain rest := fun isBlank isScoping other inRest =>
        plain isBlank isScoping other (List.mem_cons_of_mem _ inRest)
      cases stmt with
      | function loc name params body =>
          have solid : diff = .scoping → link ≠ .blank := fun isScoping isBlank =>
            nomatch plain isBlank isScoping _ List.mem_cons_self
          obtain ⟨declarable, names, fitsBody⟩ := fitsHere
          refine (ExecMatch.newFunction (.function pair names fitsBody)).bind
            fun grows value value' values => ?_
          refine (ExecMatch.define (.of_pair (grows.frames pair)) solid declarable values).bind_unit
            fun further _ _ => ?_
          exact restIH (further.frames (grows.frames pair)) plainRest fitsRest
      | _ => exact restIH pair plainRest fitsRest

/-- Where code may use `arguments`, the machines match under a pairing in which the name means the
same. -/
theorem Paired.standing (paired : Paired diff pairing first second) (pair : pairing.frames e e' .same)
    (allowed : arguments = true → pairing.clear e ∨ first.frames.owns e "arguments" = true) :
    ∃ later, pairing ≤ later ∧ Paired diff later first second ∧
      Standing .same arguments later e e' := by
  cases arguments with
  | false => exact ⟨pairing, Pairing.le_refl _, paired, .of_pair pair⟩
  | true =>
      rcases allowed rfl with isClear | owned
      · exact ⟨pairing, Pairing.le_refl _, paired, pair, fun _ => isClear⟩
      · obtain ⟨frame, found, isSome⟩ := (Frames.owns_iff _ _ _).mp owned
        exact ⟨pairing.withClear e, Pairing.le_withClear .., paired.markClear pair found isSome, pair,
          fun _ => .inr rfl⟩

namespace Simulates

variable {perform perform' : Performer} (sim : Simulates diff side perform perform')

include sim

theorem execAll {position : Position} (standing : Standing link position.arguments pairing e e')
    {body : List Stmt} (fits : Fits.stmts diff position body) :
    ExecMatch diff side position.returns SameResult pairing (perform.execAll e body)
      (perform'.execAll e' (WrapLoops.stmts diff.chosen body)) := by
  induction body generalizing pairing with
  | nil => exact .pure rfl
  | cons stmt rest restIH =>
      exact (sim.exec [] standing fits.1).bind_unit fun grows _ _ =>
        restIH (standing.mono grows) fits.2

theorem execBlock {position : Position} (standing : Standing link position.arguments pairing e e')
    {body : List Stmt} (plain : link = .blank → diff.Plain body)
    (fits : Fits.stmts diff position body) :
    ExecMatch diff side position.returns SameResult pairing (Exec.execBlock perform e body)
      (Exec.execBlock perform' e' (WrapLoops.stmts diff.chosen body)) :=
  (ExecMatch.declareFunctions standing.pair plain fits).bind_unit fun grows _ _ =>
    sim.execAll (standing.mono grows) fits

/-- The statements of a function, or of the program, in its frame. -/
theorem execBody (paired : Paired diff pairing first second) (pair : pairing.frames e e' .same)
    {body : List Stmt} (fits : Fits.stmts diff (.inFunction arguments) body)
    (allowed : arguments = true → pairing.clear e ∨ first.frames.owns e "arguments" = true ∨
      "arguments" ∈ hoistedNames diff.rule body) :
    OutcomeMatch diff side true SameResult pairing (Exec.execBody diff.rule perform e body first)
      (Exec.execBody .block perform' e' (WrapLoops.stmts diff.chosen body) second) := by
  obtain ⟨after, after', run, run', declared⟩ :=
    paired.declareNames pair (WrapLoops.hoisted_stmts fits).declarable
  obtain ⟨later, grows, pairedLater, standing⟩ := declared.paired.standing pair fun used =>
    (allowed used).imp_right (declared.owned "arguments")
  unfold Exec.execBody
  rw [(WrapLoops.hoisted_stmts fits).same, Exec.bind_run_done run, Exec.bind_run_done run']
  exact ((sim.execBlock standing (by nofun) fits).run (Pairing.le_refl _) pairedLater).earlier grows

/-! ## Calls -/

theorem callClosure {closure closure' : Closure}
    (closures : ClosureMatch diff pairing closure closure') {this this' : Value}
    (thisMatch : ValueMatch diff pairing this this') (both : ValuesMatch diff pairing args args') :
    ExecMatch diff side returns (ValueMatch diff) pairing
      (Exec.callClosure diff.rule perform closure this args)
      (Exec.callClosure .block perform' closure' this' args') := by
  refine ⟨fun {start first second} grows paired => ?_⟩
  obtain ⟨middle, further, entered, pair, clear⟩ := paired.enter (closures.mono grows)
    (thisMatch.mono grows) (ValuesMatch.mono grows both)
  obtain ⟨after, after', run, run', declared⟩ := entered.bindParams pair closures.names
    (ValuesMatch.mono (Pairing.le_trans grows further) both)
  obtain ⟨arguments, fits, allowed⟩ := (closures.mono grows).fits
  -- The function may use `arguments` where it has its own or where the name is clear around it.
  have clearOrDeclared : arguments = true → middle.clear first.frames.all.size ∨
      closure.body.declaresArguments diff.rule closure.params = true := by
    intro used
    cases isArrow : closure.isArrow with
    | false => exact .inl (clear (.inl isArrow))
    | true => exact (allowed used isArrow).imp_left fun isClear => clear (.inr isClear)
  rw [Exec.callClosure_run, Exec.callClosure_run]
  unfold Exec.finishCall
  rw [closures.params, closures.body, Exec.bind_run_done run, Exec.bind_run_done run']
  cases bodyIs : closure.body with
  | expr value =>
      rw [bodyIs] at fits clearOrDeclared
      obtain ⟨later, last, pairedLater, standing⟩ := declared.paired.standing pair fun used =>
        (clearOrDeclared used).imp_right fun listed =>
          declared.owned "arguments" (.inr (List.contains_iff_mem.mp listed))
      exact ((sim.eval standing fits).run (Pairing.le_refl _) pairedLater).earlier
        (Pairing.le_trans further last)
  | block body =>
      obtain ⟨loc, stmts⟩ := body
      rw [bodyIs] at fits clearOrDeclared
      refine (sim.execBody declared.paired pair fits fun used => ?_).catchReturn.earlier further
      refine (clearOrDeclared used).imp_right fun listed => ?_
      rw [ArrowBody.declaresArguments, Bool.or_eq_true] at listed
      exact listed.imp (fun inParams => declared.owned _ (.inr (List.contains_iff_mem.mp inParams)))
        List.contains_iff_mem.mp

/-! ## Values -/

theorem callValue {function function' this this' : Value}
    (functions : ValueMatch diff pairing function function')
    (thisMatch : ValueMatch diff pairing this this') (both : ValuesMatch diff pairing args args') :
    ExecMatch diff side returns (ValueMatch diff) pairing
      (Exec.callValue diff.rule perform function this args)
      (Exec.callValue .block perform' function' this' args') := by
  have refused : ExecMatch diff side returns (ValueMatch diff) pairing
      (do
        let shown ← Exec.display function
        Exec.throwText s!"TypeError: {shown} is not a function")
      (do
        let shown ← Exec.display function'
        Exec.throwText s!"TypeError: {shown} is not a function") := by
    refine (ExecMatch.display functions).bind fun _ shown shown' same => ?_
    obtain rfl := same
    exact .throwText _
  cases functions with
  | function _ closures => exact sim.callClosure closures thisMatch both
  | native native => exact .callNative native both
  | arrayMethod method _ pair => exact sim.callArrayMethod method pair both
  | functionMethod method _ targets =>
      cases method with
      | call => exact sim.invoke targets (ValuesMatch.headD both) (ValuesMatch.tail both)
      | apply =>
          refine (ExecMatch.argumentsOf (ValuesMatch.getElem? both 1)).bind
            fun grows items items' itemsMatch => ?_
          exact sim.invoke (targets.mono grows) ((ValuesMatch.headD both).mono grows) itemsMatch
  | _ => exact refused

end Simulates

end LoopCapture
