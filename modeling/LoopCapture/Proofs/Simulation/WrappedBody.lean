import LoopCapture.Proofs.Simulation.Statement

/-!
# Wrapped bodies

On the second side a wrapped body runs as the call of a function. Five levels of activities lie
between the block and the statements of the body: the block, the statement that calls, the call, the
method `call` of functions, and the function. When they are through, the frame of the body on the
first side and the frame of the function on the second side become a pair.
-/

set_option autoImplicit false

namespace LoopCapture

/-! ## The way to the body on the second side -/

section SecondSide

variable {frame : FrameId} {machine : Machine} {this : Value} {item : Option Value}

theorem Exec.display_text (text : String) : Exec.display (.text text) = pure text := by
  funext machine
  simp only [Exec.display, Exec.read_bind_run, Value.display, Value.displayWithin]
  rfl

theorem Exec.getMember_call_run (stamp : Stamp) (closure : Closure) (machine : Machine) :
    Exec.getMember (.function stamp closure) (.text "call") machine =
      .done (.functionMethod machine.stamp .call (.function stamp closure))
        { machine with stamp := machine.stamp + 1 } := by
  simp only [Exec.getMember, Exec.display_text]
  rfl

variable (fuel : Nat) (loc : Loc)

/-- The function that a wrapper calls is made on the spot, and so is the method. -/
theorem Exec.evalCallee_wrapper_run (params : List Ident) (body : Block) (frame : FrameId)
    (machine : Machine) :
    let function := Value.function machine.stamp ⟨false, params.map Ident.name, .block body, frame⟩
    Exec.evalCallee (perform .block (fuel + 1)) frame
        (.place (.member loc (.function loc params body) ⟨"call", loc⟩)) machine =
      .done (.functionMethod (machine.stamp + 1) .call function, function)
        { machine with stamp := machine.stamp + 2 } := by
  intro function
  have made : (perform .block (fuel + 1)).eval (.function loc params body) frame machine =
      .done function { machine with stamp := machine.stamp + 1 } := rfl
  simp only [Exec.evalCallee]
  rw [Exec.bind_run_done made, Exec.bind_run_done (Exec.getMember_call_run _ _ _)]
  rfl

theorem Performer.evalAll_wrapper_run (machine : Machine) {param : Option Ident}
    (foundThis : machine.frames.get? frame "this" = some this)
    (foundItem : Option.Rel (fun x value => machine.frames.get? frame x.name = some value) param item) :
    (perform .block (fuel + 1)).evalAll
        (.this loc :: (param.map fun x => Expr.place (.ident x)).toList) frame machine =
      .done (this :: item.toList) machine := by
  have thisRun : (perform .block (fuel + 1)).eval (.this loc) frame machine = .done this machine :=
    Exec.getVariable_run foundThis
  simp only [Performer.evalAll, Exec.mapItems]
  rw [Exec.bind_run_done thisRun]
  cases foundItem with
  | none => rfl
  | @some x value found =>
      have itemRun : (perform .block (fuel + 1)).eval (.place (.ident x)) frame machine =
          .done value machine := Exec.getVariable_run found
      simp only [Option.map_some, Option.toList_some, Exec.mapItems, Exec.bind_assoc]
      rw [Exec.bind_run_done itemRun]
      rfl

theorem exec_wrapper_run {param : Option Ident} (body : List Stmt)
    (foundThis : machine.frames.get? frame "this" = some this)
    (foundItem : Option.Rel (fun x value => machine.frames.get? frame x.name = some value) param item) :
    let function := Value.function machine.stamp
      ⟨false, param.toList.map Ident.name, .block (.mk loc body), frame⟩
    perform .block (fuel + 3) (.exec (.wrapper loc param body) frame []) machine =
      (perform .block (fuel + 1) (.invoke (.functionMethod (machine.stamp + 1) .call function) function
        (this :: item.toList)) >>= fun _ => pure ()) { machine with stamp := machine.stamp + 2 } := by
  have callee := Exec.evalCallee_wrapper_run fuel loc param.toList (.mk loc body) frame machine
  have args := Performer.evalAll_wrapper_run fuel loc { machine with stamp := machine.stamp + 2 }
    foundThis foundItem
  show (Exec.evalExpr (perform .block (fuel + 1)) frame (.call loc _ _) >>= fun _ => pure ())
    machine = _
  simp only [Exec.evalExpr, Exec.bind_assoc]
  rw [Exec.bind_run_done callee, Exec.bind_run_done args]
  rfl

/-- The variables of the wrapping function. -/
def wrapperSlots (this : Value) (array : ArrayId) (item : Option (String × Value)) :
    Entries String Value :=
  let own : Entries String Value := [("this", this), ("arguments", .array array)]
  item.elim own fun held => own.put held.1 held.2

/-- The second machine when the statements of a wrapped body start: the block and the function have
their frames, and the function has its variables. -/
def Machine.atBody (machine : Machine) (frame : FrameId) (this : Value)
    (item : Option (String × Value)) : Machine :=
  { machine with
    frames := ((machine.frames.add ⟨some frame, false, []⟩).1.add
      ⟨some machine.frames.all.size, true, wrapperSlots this machine.arrays.size item⟩).1
    arrays := machine.arrays.push (item.map Prod.snd).toList.toArray
    stamp := machine.stamp + 2 }

/-- Once called, the wrapping function runs the statements of the body. -/
theorem Exec.callClosure_wrapper_run {param : Option Ident} (body : List Stmt)
    (hoisted : hoistedNames .block body = [])
    (sameLength : param.isSome = item.isSome) :
    Exec.callClosure .block (perform .block fuel)
        ⟨false, param.toList.map Ident.name, .block (.mk loc body), machine.frames.all.size⟩ this
        item.toList
        { machine with
          frames := (machine.frames.add ⟨some frame, false, []⟩).1
          stamp := machine.stamp + 2 } =
      Exec.catchReturn (Exec.execBlock (perform .block fuel) (machine.frames.all.size + 1) body)
        (machine.atBody frame this (param.bind fun x => item.map fun value => (x.name, value))) := by
  rw [Exec.callClosure_run]
  have empty : Exec.execBody .block (perform .block fuel) (machine.frames.all.size + 1) body =
      Exec.execBlock (perform .block fuel) (machine.frames.all.size + 1) body := by
    rw [Exec.execBody, hoisted]
    rfl
  rw [← empty]
  simp only [Frames.size_add, Exec.finishCall]
  cases param with
  | none =>
      cases item with
      | none => rfl
      | some value => cases sameLength
  | some x =>
      cases item with
      | none => cases sameLength
      | some value =>
          have defined := Frames.define_add (machine.frames.add ⟨some frame, false, []⟩).1
            ⟨some machine.frames.all.size, true,
              [("this", this), ("arguments", .array machine.arrays.size)]⟩ x.name value
          rw [Frames.size_add] at defined
          refine Exec.bind_run_done (congrArg (Outcome.done ()) ?_)
          simp only [Machine.atBody, wrapperSlots, Option.bind_some, Option.map_some,
            Option.elim_some, ← defined]
          rfl

section Block

variable {param : Option Ident} (innerLoc : Loc) (body : List Stmt)
  (foundThis : machine.frames.get? frame "this" = some this)
  (foundItem : Option.Rel (fun x value => machine.frames.get? frame x.name = some value) param item)
  (ordered : machine.frames.Ordered) (below : frame < machine.frames.all.size)

include foundThis foundItem ordered below

/-- The block around a wrapper has an empty frame, in which the wrapper finds what it passes on. -/
theorem exec_block_wrapper_run :
    let function := Value.function machine.stamp
      ⟨false, param.toList.map Ident.name, .block (.mk loc body), machine.frames.all.size⟩
    perform .block (fuel + 4) (.exec (.block (.mk innerLoc [.wrapper loc param body])) frame [])
        machine =
      (perform .block (fuel + 1) (.invoke (.functionMethod (machine.stamp + 1) .call function) function
        (this :: item.toList)) >>= fun _ => pure ())
        { machine with
          frames := (machine.frames.add ⟨some frame, false, []⟩).1
          stamp := machine.stamp + 2 } := by
  intro function
  let inner : Machine := { machine with frames := (machine.frames.add ⟨some frame, false, []⟩).1 }
  have seen (name : String) :
      inner.frames.get? machine.frames.all.size name = machine.frames.get? frame name :=
    Frames.get?_add_empty ordered below false name
  have foundInner : Option.Rel
      (fun x value => inner.frames.get? machine.frames.all.size x.name = some value) param item := by
    cases foundItem with
    | none => exact .none
    | some found => exact .some ((seen _).trans found)
  have called := exec_wrapper_run fuel loc body ((seen "this").trans foundThis) foundInner
  show (perform .block (fuel + 3) (.exec (.wrapper loc param body) machine.frames.all.size []) >>=
    fun _ => pure ()) inner = _
  rw [Exec.bind_run_congr called, Exec.bind_assoc]
  rfl

/-- A wrapped body runs in the frame of the wrapping function, and returns nothing. -/
theorem exec_wrapped_run (hoisted : hoistedNames .block body = []) :
    perform .block (fuel + 5) (.exec (.block (.mk innerLoc [.wrapper loc param body])) frame [])
        machine =
      (Exec.catchReturn (Exec.execBlock (perform .block fuel) (machine.frames.all.size + 1) body) >>=
        fun _ => pure ())
        (machine.atBody frame this (param.bind fun x => item.map fun value => (x.name, value))) := by
  have sameLength : param.isSome = item.isSome := by cases foundItem <;> rfl
  rw [exec_block_wrapper_run (fuel + 1) loc innerLoc body foundThis foundItem ordered below]
  exact Exec.bind_run_congr (Exec.callClosure_wrapper_run fuel loc body hoisted sameLength)

/-- With fewer than five levels left, the call of the wrapping function is cut short. -/
theorem exec_wrapped_run_exhausted (few : fuel < 5) :
    ∃ after, perform .block fuel (.exec (.block (.mk innerLoc [.wrapper loc param body])) frame [])
      machine = .stopped .exhausted after := by
  match fuel with
  | 0 => exact ⟨_, rfl⟩
  | 1 => exact ⟨_, rfl⟩
  | 2 => exact ⟨_, rfl⟩
  | 3 => exact ⟨_, rfl⟩
  | 4 =>
      rw [exec_block_wrapper_run 0 loc innerLoc body foundThis foundItem ordered below]
      exact ⟨_, rfl⟩

end Block

end SecondSide

/-! ## The new pair -/

variable {diff : Difference} {side : Side} {returns : Bool} {pairing : Pairing}
  {first second : Machine} {link : Link} {e e' under under' : FrameId} {this this' : Value}
  {holder : Option (FrameId × String)} {item : Option (String × Value)}

/-- Where a wrapped body stands on both sides: directly in the frames of the loop, or in frames of an
iteration that are in no pair. -/
inductive BodyFrames (diff : Difference) (pairing : Pairing) (first second : Machine)
    (e e' : FrameId) :
    FrameId → FrameId → Option (FrameId × String) → Option (String × Value) → Prop where
  | plain : BodyFrames diff pairing first second e e' e e' none none
  | held {id id' : FrameId} {name : String} {value value' : Value} : name ≠ "this" →
      first.frames.frame? id = some ⟨some e, false, [(name, value)]⟩ →
      second.frames.frame? id' = some ⟨some e', false, [(name, value')]⟩ →
      ValueMatch diff pairing value value' →
      (∀ d d' link, pairing.frames d d' link → d ≠ id ∧ d' ≠ id') →
      (∀ d d' other, ¬ pairing.frames d d' (.wrapped (some (id, other)))) →
      BodyFrames diff pairing first second e e' id id' (some (id, name)) (some (name, value'))

theorem BodyFrames.way (frames : BodyFrames diff pairing first second e e' under under' holder item) :
    WayUp first.frames under e (holder.map Prod.snd) ∧
      WayUp second.frames under' e' (holder.map Prod.snd) := by
  cases frames with
  | plain => exact ⟨rfl, rfl⟩
  | held _ found found' =>
      refine ⟨⟨_, found, rfl, fun other different => ?_⟩, ⟨_, found', rfl, fun other different => ?_⟩⟩
      · rw [Entries.get?_cons, if_neg different, Entries.get?_nil]
      · rw [Entries.get?_cons, if_neg different, Entries.get?_nil]

theorem get?_wrapperSlots (this : Value) (array : ArrayId) (item : Option (String × Value))
    (name : String) (notThis : name ≠ "this") (notArguments : name ≠ "arguments") :
    (wrapperSlots this array item).get? name =
      item.bind fun held => if name = held.1 then some held.2 else none := by
  cases item with
  | none => simp [wrapperSlots, Entries.get?_cons, notThis, notArguments]
  | some held => simp [wrapperSlots, Entries.get?_put, Entries.get?_cons, notThis, notArguments]

theorem BodyFrames.below
    (frames : BodyFrames diff pairing first second e e' under under' holder item)
    (paired : Paired diff pairing first second) (pair : pairing.frames e e' link) :
    under < first.frames.all.size ∧ under' < second.frames.all.size := by
  cases frames with
  | plain => exact ⟨paired.first_lt pair, paired.second_lt pair⟩
  | held _ found found' _ _ _ => exact ⟨Frames.frame?_lt found, Frames.frame?_lt found'⟩

theorem BodyFrames.get?_this
    (frames : BodyFrames diff pairing first second e e' under under' holder item)
    (paired : Paired diff pairing first second) :
    first.frames.get? under "this" = first.frames.get? e "this" ∧
      second.frames.get? under' "this" = second.frames.get? e' "this" := by
  have notThis : holder.map Prod.snd ≠ some "this" := by
    cases frames with
    | plain => exact nofun
    | held notThis _ _ _ _ _ => exact fun same => notThis (Option.some.inj same)
  obtain ⟨way, way'⟩ := frames.way
  exact ⟨Frames.get?_congr_find? (way.find? paired.ordered notThis),
    Frames.get?_congr_find? (way'.find? paired.ordered' notThis)⟩

/-- What the variables of a wrapping function are on the first side: nothing yet, except that the
frame of the iteration may own one. -/
theorem BodyFrames.slots
    (frames : BodyFrames diff pairing first second e e' under under' holder item) (array : ArrayId)
    {name : String} (notThis : name ≠ "this") (notArguments : name ≠ "arguments") :
    (holder.map Prod.snd ≠ some name →
      (wrapperSlots this' array item).get? name = none) ∧
    (holder.map Prod.snd = some name →
      ∃ held value value', first.frames.frame? under = some held ∧
        held.slots.get? name = some value ∧
        (wrapperSlots this' array item).get? name = some value' ∧
        ValueMatch diff pairing value value') := by
  rw [get?_wrapperSlots this' array item name notThis notArguments]
  cases frames with
  | plain => exact ⟨fun _ => rfl, nofun⟩
  | @held id id' param value value' _ found _ values _ _ =>
      refine ⟨fun different => ?_, fun same => ?_⟩
      · have ne : name ≠ param := fun same => different (by rw [same]; rfl)
        simp [ne]
      · obtain rfl : param = name := Option.some.inj same
        exact ⟨_, value, value', found, by simp [Entries.get?_cons], by simp, values⟩

section NewPair

variable (paired : Paired diff pairing first second) (pair : pairing.frames e e' link)
  (frames : BodyFrames diff pairing first second e e' under under' holder item)
  (isThis : first.frames.get? e "this" = some this) (thisMatch : ValueMatch diff pairing this this')

include paired pair frames isThis thisMatch

theorem BodyFrames.frameMatch (array : ArrayId) :
    FrameMatch diff
      (pairing.withFrames first.frames.all.size (second.frames.all.size + 1) (.wrapped holder) False)
      (first.frames.add ⟨some under, false, []⟩).1
      ((second.frames.add ⟨some under', false, []⟩).1.add
        ⟨some second.frames.all.size, true, wrapperSlots this' array item⟩).1
      first.frames.all.size (second.frames.all.size + 1) (.wrapped holder) := by
  have grows := pairing.le_withFrames first.frames.all.size (second.frames.all.size + 1)
    (.wrapped holder) False
  obtain ⟨below, below'⟩ := frames.below paired pair
  obtain ⟨way, way'⟩ := frames.way
  have orderedBlank : (second.frames.add ⟨some under', false, []⟩).1.Ordered :=
    Frames.Ordered.add paired.ordered' fun parent (isParent : some under' = some parent) =>
      Option.some.inj isParent ▸ below'
  have kept := Frames.Kept.add paired.ordered ⟨some under, false, []⟩
  have keptBlank := Frames.Kept.add paired.ordered' ⟨some under', false, []⟩
  have keptAll := Frames.Kept.add orderedBlank
    ⟨some second.frames.all.size, true, wrapperSlots this' array item⟩
  refine .wrapped
    { frame := ⟨some under, false, []⟩
      under := under
      outer := e
      frame' := ⟨some second.frames.all.size, true, wrapperSlots this' array item⟩
      block := second.frames.all.size
      blank := ⟨some under', false, []⟩
      under' := under'
      outer' := e'
      link := link
      this := this
      this' := this' }
    { frame := Frames.frame?_add_new _ _
      parent := rfl
      way := way.kept kept
      holderIs := ?_
      frame' := ?_
      parent' := rfl
      blank := keptAll.frame (Frames.frame?_add_new _ _)
      blankSlots := rfl
      blankParent := rfl
      way' := (way'.kept keptBlank).kept keptAll
      outer := .inl pair
      blockFree := ?_
      underFree := ?_
      slots := ?_
      noThis := rfl
      this := kept.this isThis
      this' := ?_
      thisMatch := thisMatch.mono grows }
  · intro id name same
    cases frames with
    | plain => cases same
    | held notThis _ _ _ _ _ =>
        cases same
        exact ⟨rfl, notThis⟩
  · have found := Frames.frame?_add_new (second.frames.add ⟨some under', false, []⟩).1
      ⟨some second.frames.all.size, true, wrapperSlots this' array item⟩
    rwa [Frames.size_add] at found
  · intro d k newPair
    rcases newPair with oldPair | ⟨_, isNew, _⟩
    · exact Nat.lt_irrefl _ (paired.second_lt oldPair)
    · exact Nat.succ_ne_self _ isNew.symm
  · intro isHeld d k newPair
    rcases newPair with oldPair | ⟨_, isNew, _⟩
    · cases frames with
      | plain => cases isHeld
      | held _ _ _ _ unpaired _ => exact (unpaired _ _ _ oldPair).2 rfl
    · rw [show under' = second.frames.all.size + 1 from isNew] at below'
      exact Nat.not_succ_lt_self below'
  · intro name notThis notArguments
    obtain ⟨absent, held⟩ := frames.slots array notThis notArguments
    refine ⟨fun shown => ?_, fun isParam _ => ?_⟩
    · rw [absent (shown.resolve_right nofun)]
      exact .none
    · obtain ⟨frame, value, value', found, owned, owned', values⟩ := held isParam
      exact ⟨frame, value, value', kept.frame found, owned, owned', values.mono grows⟩
  · cases frames with
    | plain => rfl
    | held notThis _ _ _ _ _ =>
        simp [wrapperSlots, Entries.get?_put, Entries.get?_cons, notThis.symm]

/-- The frame of the body and the frame of the wrapping function become a pair. -/
theorem Paired.atBody :
    Paired diff (pairing.withFrames first.frames.all.size (second.frames.all.size + 1)
        (.wrapped holder) False)
      { first with frames := (first.frames.add ⟨some under, false, []⟩).1 }
      (second.atBody under' this' item) := by
  obtain ⟨below, below'⟩ := frames.below paired pair
  -- The second machine comes as far as the frame of the block without a new pair.
  have blank : Paired diff pairing first
      { second with
        frames := (second.frames.add ⟨some under', false, []⟩).1
        arrays := second.arrays.push (item.map Prod.snd).toList.toArray
        stamp := second.stamp + 2 } :=
    ((paired.addFrame_second fun parent (isParent : some under' = some parent) =>
      Option.some.inj isParent ▸ below').addArray_second _).addStamp_second.addStamp_second
  have matching := frames.frameMatch paired pair isThis thisMatch second.arrays.size
  rw [← Frames.size_add second.frames ⟨some under', false, []⟩] at matching ⊢
  refine blank.addPair (fun parent isParent => ?_) (fun parent isParent => ?_) matching ?_ nofun ?_
  · exact Option.some.inj isParent ▸ below
  · rw [← Option.some.inj isParent, Frames.size_add]
    exact Nat.lt_succ_self _
  · intro id name isLink
    cases frames with
    | plain => cases isLink
    | held _ found _ _ unpaired unheld =>
        cases isLink
        exact ⟨Frames.frame?_lt found, fun d d' k other => (unpaired d d' k other).1, unheld⟩
  · rw [Frames.get?_add_empty paired.ordered below, (frames.get?_this paired).1, isThis]
    rfl

end NewPair

/-! ## Running a wrapped body -/

/-- Without `return` a function call that ignores the result ends like its body. -/
theorem OutcomeMatch.ignoreReturn {outcome : Outcome Unit} {body : Exec Unit}
    (outcomes : OutcomeMatch diff side false SameResult pairing outcome (body second)) :
    OutcomeMatch diff side returns SameResult pairing outcome
      ((Exec.catchReturn body >>= fun _ => pure ()) second) := by
  show OutcomeMatch diff side returns SameResult pairing outcome
    (Exec.bind (Exec.catchReturn body) (fun _ => pure ()) second)
  unfold Exec.bind Exec.catchReturn
  generalize body second = outcome' at outcomes
  cases outcomes with
  | done grows paired _ => exact .done grows paired rfl
  | stopped grows paired stops =>
      cases stops with
      | breaks label => exact .stopped grows paired (.breaks label)
      | continues label => exact .stopped grows paired (.continues label)
      | returns impossible _ => cases impossible
      | throws text values => exact .stopped grows paired (.throws text values)
      | fault fault => exact .stopped grows paired (.fault fault)
  | cutFirst isSide => exact .cutFirst isSide
  | cutSecond isSide => exact .cutSecond isSide

/-- A body and its wrapped form match if its statements do, five levels further on the second
side. -/
theorem Simulates.wrapped {fuel fuel' : Nat}
    (sim : ∀ inner, fuel' = inner + 5 →
      Simulates diff side (perform diff.rule fuel) (perform .block inner))
    (few : fuel' < 5 → side = .second)
    (paired : Paired diff pairing first second) (pair : pairing.frames e e' link)
    {param : Option Ident} {passed : Option Value}
    (frames : BodyFrames diff pairing first second e e' under under' holder
      (param.bind fun x => passed.map fun value => (x.name, value)))
    (foundItem : Option.Rel (fun x value => second.frames.get? under' x.name = some value) param
      passed)
    (loc : Loc) {stmt : Stmt} (fits : Fits.stmt diff .wrapped stmt) (whole : diff.Moves stmt) :
    OutcomeMatch diff side returns SameResult pairing
      (perform diff.rule (fuel + 1) (.exec stmt under []) first)
      (perform .block fuel' (.exec ((WrapLoops.stmt diff.chosen stmt).wrapped loc param) under' [])
        second) := by
  obtain ⟨rule, isBlock, hoisted⟩ := whole
  cases stmt with
  | block inner =>
      obtain ⟨innerLoc, body⟩ := inner
      obtain ⟨this, this', isThis, isThis', thisMatch⟩ := paired.this_match pair
      obtain ⟨_, below'⟩ := frames.below paired pair
      have foundThis := (frames.get?_this paired).2.trans isThis'
      have fitsBody : Fits.stmts diff .wrapped body := fits.2
      have same := (WrapLoops.hoisted_stmts fitsBody).same
      rw [rule] at sim same ⊢
      rcases Nat.lt_or_ge fuel' 5 with tooFew | enough
      · obtain ⟨after, run⟩ := exec_wrapped_run_exhausted fuel' loc innerLoc
          (WrapLoops.stmts diff.chosen body) foundThis foundItem paired.ordered' below' tooFew
        exact run ▸ .cutSecond (few tooFew)
      · obtain ⟨inner, rfl⟩ := Nat.exists_eq_add_of_le' enough
        have run := exec_wrapped_run inner loc innerLoc (WrapLoops.stmts diff.chosen body) foundThis
          foundItem paired.ordered' below' (same.trans hoisted)
        have start := Paired.atBody paired pair frames isThis thisMatch
        have standing : Standing (.wrapped holder) false _ first.frames.all.size
            (second.frames.all.size + 1) :=
          .of_pair (pairing.withFrames_new _ _ (.wrapped holder) False)
        have bodies := ((sim inner rfl).execBlock standing (by nofun) fitsBody).run
          (Pairing.le_refl _) start
        exact run ▸ (OutcomeMatch.ignoreReturn bodies).earlier (Pairing.le_withFrames ..)
  | _ => cases isBlock

end LoopCapture
