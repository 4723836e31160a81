import LoopCapture.Proofs.Runs.Agree

/-!
# The parts of a machine

Variables, arrays, the console and pending calls hold sound values if they are given such, and what is
read from them is sound then. Nothing here jumps.
-/

set_option autoImplicit false

namespace LoopCapture

/-! ## The parts of a machine -/

theorem Entries.forall_put {post : Value → Prop} {entries : Entries String Value} {name : String}
    {value : Value} (all : ∀ entry ∈ entries, post entry.2) (good : post value) :
    ∀ entry ∈ entries.put name value, post entry.2 := by
  induction entries with
  | nil => simpa [put] using good
  | cons first rest ih =>
      obtain ⟨key, old⟩ := first
      obtain ⟨oldGood, restGood⟩ := List.forall_mem_cons.mp all
      unfold put
      split
      · exact List.forall_mem_cons.mpr ⟨good, restGood⟩
      · exact List.forall_mem_cons.mpr ⟨oldGood, ih restGood⟩

theorem Entries.get?_of_forall {post : Value → Prop} {entries : Entries String Value}
    {name : String} {value : Value} (all : ∀ entry ∈ entries, post entry.2)
    (found : entries.get? name = some value) : post value := by
  induction entries with
  | nil => cases found
  | cons first rest ih =>
      obtain ⟨key, old⟩ := first
      obtain ⟨oldGood, restGood⟩ := List.forall_mem_cons.mp all
      rw [Entries.get?_cons] at found
      split at found
      · exact Option.some.inj found ▸ oldGood
      · exact ih restGood found

variable [Watch] {frames : Frames Value}

namespace Machine.Sound

variable {machine : Machine} (sound : machine.Sound)

include sound

theorem reframe {later : Frames Value} (grows : machine.frames.Grows later)
    (held : ∀ (id : FrameId) (frame : Frame Value), later.frame? id = some frame →
      Served later id [] ∧ ∀ entry ∈ frame.slots, entry.2.Sound machine.frames) :
    ({ machine with frames := later } : Machine).Sound where
  served id frame found := (held id frame found).1
  frames id frame found entry member := ((held id frame found).2 entry member).mono grows
  arrays id items found := (sound.arrays id items found).mono grows
  pending timer member :=
    ⟨(sound.pending timer member).1.mono grows, (sound.pending timer member).2.mono grows⟩

theorem define {value : Value} (good : value.Sound machine.frames) (id : FrameId) (name : String) :
    ({ machine with frames := machine.frames.define id name value } : Machine).Sound := by
  have grows := Frames.grows_define machine.frames id name value
  refine sound.reframe grows fun other frame found => ?_
  rw [Frames.frame?_define] at found
  split at found
  · obtain ⟨old, present, rfl⟩ := Option.map_eq_some_iff.mp found
    exact ⟨(sound.served other old present).mono grows,
      Entries.forall_put (sound.frames other old present) good⟩
  · exact ⟨(sound.served other frame found).mono grows, sound.frames other frame found⟩

theorem addFrame {added : Frame Value}
    (served : Served (machine.frames.add added).1 machine.frames.all.size [])
    (good : ∀ entry ∈ added.slots, entry.2.Sound machine.frames) :
    ({ machine with frames := (machine.frames.add added).1 } : Machine).Sound := by
  have grows := Frames.grows_add machine.frames added
  refine sound.reframe grows fun id frame found => ?_
  rw [Frames.frame?_add] at found
  split at found
  · rename_i isNew
    exact ⟨isNew ▸ served, Option.some.inj found ▸ good⟩
  · exact ⟨(sound.served id frame found).mono grows, sound.frames id frame found⟩

theorem get? {frame : FrameId} {name : String} {value : Value}
    (found : machine.frames.get? frame name = some value) : value.Sound machine.frames := by
  obtain ⟨owner, -, inOwner⟩ := Option.bind_eq_some_iff.mp found
  obtain ⟨own, present, held⟩ := Option.bind_eq_some_iff.mp inOwner
  exact Entries.get?_of_forall (sound.frames owner own present) held

theorem items (array : ArrayId) :
    ValuesSound machine.frames ((machine.arrays[array]?).getD #[]).toList := by
  cases found : machine.arrays[array]? with
  | none => exact .nil
  | some items => exact sound.arrays array items found

theorem modifyItems {change : Array Value → Array Value}
    (keeps : ∀ items, ValuesSound machine.frames items.toList →
      ValuesSound machine.frames (change items).toList) (array : ArrayId) :
    ({ machine with arrays := machine.arrays.modify array change } : Machine).Sound where
  served := sound.served
  frames := sound.frames
  arrays id items found := by
    rw [show _ = _ from Array.getElem?_modify] at found
    split at found
    · obtain ⟨old, present, rfl⟩ := Option.map_eq_some_iff.mp found
      exact keeps old (sound.arrays id old present)
    · exact sound.arrays id items found
  pending := sound.pending

theorem pushItems {added : Array Value} (good : ValuesSound machine.frames added.toList) :
    ({ machine with arrays := machine.arrays.push added } : Machine).Sound where
  served := sound.served
  frames := sound.frames
  arrays id items found := by
    rw [show _ = _ from Array.getElem?_push] at found
    split at found
    · exact Option.some.inj found ▸ good
    · exact sound.arrays id items found
  pending := sound.pending

end Machine.Sound

theorem ValuesSound.setItem {items : Array Value} {value : Value}
    (sound : ValuesSound frames items.toList) (good : value.Sound frames) (index : Nat) :
    ValuesSound frames (Exec.setItem items index value).toList := by
  intro held member
  rw [Exec.setItem, Array.toList_setIfInBounds] at member
  obtain inside | rfl := List.mem_or_eq_of_mem_set member
  · obtain old | filled := Array.mem_append.mp (Array.mem_toList_iff.mp inside)
    · exact sound held (Array.mem_toList_iff.mpr old)
    · rw [Array.eq_of_mem_replicate filled]
      trivial
  · exact good

theorem ValuesSound.take {items : Array Value} (sound : ValuesSound frames items.toList)
    (count : Nat) : ValuesSound frames (items.take count).toList := by
  intro held member
  have inPrefix : held ∈ items.toList.take count := by simpa using member
  exact sound held (List.mem_of_mem_take inPrefix)

theorem ValuesSound.shorten {items : Array Value} (sound : ValuesSound frames items.toList)
    (length : Int) : ValuesSound frames (Exec.shorten items length).toList := by
  unfold Exec.shorten
  split
  · exact sound.take _
  · exact sound.take _

/-! ## Results without functions -/

theorem undefined_sound : Value.undefined.Sound frames := trivial

theorem number_sound (number : Number) : (Value.number number).Sound frames := trivial

theorem ofLiteral_sound (literal : Literal) : (Value.ofLiteral literal).Sound frames := by
  cases literal <;> trivial

theorem binary_sound {arrays : Arrays} {op : BinaryOp} {left right result : Value}
    (computed : Value.binary arrays op left right = .ok result) : result.Sound frames := by
  cases op with
  | arith op =>
      simp only [Value.binary, Value.arith] at computed
      split at computed
      · cases shown : left.display arrays with
        | error fault => simp [shown, bind, Except.bind] at computed
        | ok text =>
            cases shown' : right.display arrays with
            | error fault => simp [shown, shown', bind, Except.bind] at computed
            | ok text' =>
                simp only [shown, shown', bind, Except.bind, pure, Except.pure] at computed
                exact Except.ok.inj computed ▸ trivial
      · cases number : op.onNumbers left.toNumber right.toNumber with
        | error fault =>
            rw [number] at computed
            cases computed
        | ok number' =>
            rw [number] at computed
            exact Except.ok.inj computed ▸ trivial
  | order op =>
      simp only [Value.binary] at computed
      cases holds : Value.order op left right with
      | error fault =>
          rw [holds] at computed
          cases computed
      | ok holds' =>
          rw [holds] at computed
          exact Except.ok.inj computed ▸ trivial
  | equal op => exact Except.ok.inj computed ▸ trivial

/-! ## Variables, arrays and the console -/

namespace Exec.Agree

variable {targets : Targets} {value this base key : Value} {args : List Value} {frame : FrameId}
  {names : List String}

theorem newFrame {parent : FrameId} (served : Served frames parent names) (isFunction : Bool) :
    Safe frames targets (Served · · names) (Exec.newFrame parent isFunction) := by
  refine update fun machine grows sound => ?_
  have inner : Served (machine.frames.new (some parent) isFunction).1
      machine.frames.all.size names :=
    fun watched name member => (served.mono grows watched name member).child rfl
  exact ⟨Frames.grows_add _ _,
    sound.addFrame inner.this fun _ member => absurd member List.not_mem_nil, inner⟩

theorem copyFrame (served : Served frames frame names) :
    Safe frames targets (Served · · names) (Exec.copyFrame frame) := by
  refine update fun machine grows sound => ?_
  have inner : Served (machine.frames.copy frame).1 machine.frames.all.size names := by
    intro watched name member
    have bound := served.mono grows watched name member
    obtain ⟨old, found⟩ := bound.exists_frame
    simp only [Frames.copy, found]
    exact bound.copy found
  refine ⟨Frames.grows_add _ _, sound.addFrame inner.this ?_, inner⟩
  cases found : machine.frames.frame? frame with
  | none => exact fun _ member => absurd member List.not_mem_nil
  | some old => exact sound.frames frame old found

theorem define (good : value.Sound frames) (frame : FrameId) (name : String) :
    Safe frames targets AnyEnd (Exec.define frame name value) :=
  modify fun _ grows sound =>
    ⟨Frames.grows_define _ frame name value, sound.define (good.mono grows) frame name, trivial⟩

/-- A definition serves its frame with the name. -/
theorem defineServed (good : value.Sound frames) (served : Served frames frame names)
    (name : String) :
    Safe frames targets (fun later _ => Served later frame (name :: names))
      (Exec.define frame name value) := by
  refine modify fun machine grows sound => ⟨Frames.grows_define _ frame name value,
    sound.define (good.mono grows) frame name, ?_⟩
  have still := (served.mono grows).mono (Frames.grows_define machine.frames frame name value)
  refine still.cons fun watched => .of_owns ?_
  obtain ⟨old, found⟩ := (served.mono grows watched "this" List.mem_cons_self).exists_frame
  exact Frames.owns_define_self found name value

theorem getVariable (frame : FrameId) (name : String) :
    Safe frames targets Value.Sound (Exec.getVariable frame name) := by
  have looked : Safe frames targets (Maybe Value.Sound)
      (Exec.read (·.frames.get? frame name)) :=
    read fun _ _ sound _ found => sound.get? found
  refine looked.bind fun _ found good => ?_
  cases found with
  | none => exact throwText _
  | some value => exact pure (good value rfl)

theorem setVariable (good : value.Sound frames) (frame : FrameId) (name : String) :
    Safe frames targets AnyEnd (Exec.setVariable frame name value) := by
  have looked : Safe frames targets AnyEnd (Exec.read (·.frames.find? frame name)) :=
    read fun _ _ _ => trivial
  refine looked.bind fun grows found _ => ?_
  cases found with
  | none => exact throwText _
  | some owner => exact define (good.mono grows) owner name

theorem readThis (served : Served frames frame []) :
    Agree frames targets Value.Sound (Exec.getVariable frame "this") (Watch.access.this frame) := by
  intro machine grows sound
  refine ⟨(Watch.this_eq fun watched => ?_).symm, (getVariable frame "this" machine grows sound).2⟩
  exact served.mono grows watched "this" List.mem_cons_self

theorem assignDeclared (good : value.Sound frames) {name : String}
    (served : Served frames frame names) (member : name ∈ names) :
    Agree frames targets AnyEnd (Exec.setVariable frame name value)
      (Watch.access.assign frame name value) := by
  intro machine grows sound
  refine ⟨(Watch.assign_eq value fun watched => ?_).symm,
    (setVariable good frame name machine grows sound).2⟩
  exact served.mono grows watched name (List.mem_cons_of_mem _ member)

theorem newArray {items : List Value} (good : ValuesSound frames items) :
    Safe frames targets Value.Sound (Exec.newArray items.toArray) :=
  update fun _ grows sound => ⟨.refl _, sound.pushItems (good.mono grows), trivial⟩

theorem getItems (array : ArrayId) :
    Safe frames targets (fun later items => ValuesSound later items.toList) (Exec.getItems array) :=
  read fun _ _ sound => sound.items array

theorem modifyItems {change : Array Value → Array Value}
    (keeps : ∀ {later : Frames Value}, frames.Grows later → ∀ items,
      ValuesSound later items.toList → ValuesSound later (change items).toList) (array : ArrayId) :
    Safe frames targets AnyEnd (Exec.modifyItems array change) :=
  modify fun _ grows sound => ⟨.refl _, sound.modifyItems (keeps grows) array, trivial⟩

theorem newStamp : Safe frames targets AnyEnd Exec.newStamp :=
  update fun _ _ sound => ⟨.refl _, ⟨sound.served, sound.frames, sound.arrays, sound.pending⟩, trivial⟩

theorem newFunction {closure : Closure} (good : closure.Sound frames) :
    Safe frames targets Value.Sound (Exec.newFunction closure) :=
  newStamp.bind fun grows _ _ => pure ⟨good.1, good.2.mono grows⟩

theorem writeLine (line : String) :
    Safe frames targets AnyEnd (Exec.writeLine line) :=
  modify fun _ _ sound => ⟨.refl _, ⟨sound.served, sound.frames, sound.arrays, sound.pending⟩, trivial⟩

theorem display (value : Value) :
    Safe frames targets AnyEnd (Exec.display value) := by
  have shown : Safe frames targets AnyEnd
      (Exec.read fun machine => value.display machine.arrays) :=
    read fun _ _ _ => trivial
  exact shown.bind fun _ _ _ => ofFault fun _ _ => trivial

theorem truthy (value : Value) :
    Safe frames targets AnyEnd (Exec.truthy value) :=
  ofNumber _

theorem throwValue (good : value.Sound frames) :
    Safe frames targets AnyEnd (Exec.throwValue value) :=
  (display value).bind fun grows _ _ => stop (good.mono grows) fun _ => trivial

/-! ## Members -/

theorem arrayMember (array : ArrayId) (key : Value) :
    Safe frames targets Value.Sound (Exec.arrayMember array key) := by
  refine (ofNumber _).bind fun _ index _ => ?_
  cases index with
  | some index =>
      refine (getItems array).bind fun _ items good => pure ?_
      rw [← Array.getElem?_toList]
      exact good.getD index
  | none =>
      dsimp only
      split
      · exact (getItems array).bind fun _ _ _ => pure trivial
      · refine (display key).bind fun _ name _ => ?_
        unfold Exec.arrayMethod
        split
        · exact pure trivial
        · exact newStamp.bind fun _ _ _ => pure trivial

theorem textMember (text : String) (key : Value) :
    Safe frames targets Value.Sound (Exec.textMember text key) := by
  refine (ofNumber _).bind fun _ index _ => ?_
  cases index with
  | some index =>
      dsimp only
      split <;> exact pure trivial
  | none =>
      refine pure ?_
      split <;> trivial

theorem functionMethod (good : value.Sound frames) (name : String) :
    Safe frames targets Value.Sound (Exec.functionMethod value name) := by
  unfold Exec.functionMethod
  split
  · exact pure trivial
  · exact newStamp.bind fun grows _ _ => pure (good.mono grows)

theorem getMember (good : base.Sound frames) (key : Value) :
    Safe frames targets Value.Sound (Exec.getMember base key) := by
  have other : Safe frames targets Value.Sound
      (if base.isMissing then do
        let shownBase ← Exec.display base
        let shownKey ← Exec.display key
        Exec.throwText s!"TypeError: Cannot read properties of {shownBase} (reading '{shownKey}')"
      else do Exec.functionMethod base (← Exec.display key)) := by
    split
    · exact (display base).bind fun _ _ _ => (display key).bind fun _ _ _ => throwText _
    · exact (display key).bind fun grows name _ => functionMethod (good.mono grows) name
  cases base with
  | array array => exact arrayMember array key
  | text text => exact textMember text key
  | console stamp =>
      refine (display key).bind fun _ name _ => pure ?_
      split <;> trivial
  | bool value => exact pure trivial
  | number value => exact pure trivial
  | _ => exact other

theorem refuseMember (base key : Value) :
    Safe frames targets AnyEnd (Exec.refuseMember base key) :=
  (display key).bind fun _ _ _ => (display base).bind fun _ _ _ => throwText _

theorem setMember (good : value.Sound frames) (base key : Value) :
    Safe frames targets AnyEnd (Exec.setMember base key value) := by
  unfold Exec.setMember
  split
  · refine (ofNumber _).bind fun grows index _ => ?_
    cases index with
    | some index =>
        exact modifyItems (fun further items sound =>
          sound.setItem ((good.mono grows).mono further) index) _
    | none =>
        dsimp only
        split
        · exact (ofNumber _).bind fun _ length _ =>
            modifyItems (fun _ items sound => sound.shorten length) _
        · exact refuseMember _ _
  · exact refuseMember _ _

/-! ## Native functions -/

theorem delayOf (value : Value) :
    Safe frames targets AnyEnd (Exec.delayOf value) :=
  (ofNumber _).bind fun _ _ _ => pure trivial

theorem schedule {callback : Callback} (good : callback.Sound frames) (delay : Float) :
    Safe frames targets Value.Sound (Exec.schedule delay callback) := by
  refine update fun machine grows sound =>
    ⟨.refl _, ⟨sound.served, sound.frames, sound.arrays, fun timer member => ?_⟩, trivial⟩
  obtain old | added := List.mem_append.mp member
  · exact sound.pending timer old
  · obtain rfl := List.mem_singleton.mp added
    exact ⟨good.1.mono grows, good.2.mono grows⟩

theorem displayAll (values : List Value) :
    Safe frames targets AnyEnd (Exec.mapItems (fun _ value => Exec.display value) 0 values) :=
  (mapItems (fun _ _ value _ => display value) 0).weaken fun _ _ _ => trivial

theorem callNative (native : Native) (good : ValuesSound frames args) :
    Safe frames targets Value.Sound (Exec.callNative native args) := by
  cases native with
  | setTimeout =>
      match args with
      | [] => exact throwText _
      | [function] => exact schedule ⟨good.headD, .nil⟩ 0
      | function :: delay :: rest =>
          exact (delayOf delay).bind fun grows delay _ =>
            schedule ⟨good.headD.mono grows, good.tail.tail.mono grows⟩ delay
  | string =>
      cases args with
      | nil => exact pure trivial
      | cons value rest => exact (display value).bind fun _ _ _ => pure trivial
  | log =>
      exact (displayAll args).bind fun _ _ _ => (writeLine _).bind fun _ _ _ => pure trivial

theorem separator (args : List Value) :
    Safe frames targets AnyEnd (Exec.separator args) := by
  unfold Exec.separator
  split
  · exact pure trivial
  · exact pure trivial
  · exact display _

theorem argumentsOf (slot : Option Value) :
    Safe frames targets ValuesSound (Exec.argumentsOf slot) := by
  unfold Exec.argumentsOf
  split
  · exact (getItems _).bind fun _ _ good => pure good
  · exact pure .nil

theorem bindParams (frame : FrameId) (names : List String) (good : ValuesSound frames args) :
    Safe frames targets AnyEnd (Exec.bindParams frame names args) := by
  induction names generalizing frames args with
  | nil => exact pure trivial
  | cons name names ih =>
      exact (define good.headD frame name).bind fun grows _ _ => ih (good.tail.mono grows)

theorem declareFunctions {around : Targets} {body : List Stmt}
    (targeted : Targeted (stmtsWellTargeted around body)) (served : Served frames frame []) :
    Safe frames targets AnyEnd (Exec.declareFunctions frame body) := by
  fun_induction Exec.declareFunctions frame body generalizing frames with
  | case1 => exact pure trivial
  | case2 loc name params body rest ih =>
      refine (newFunction ?_).bind fun grows function good =>
        (define good frame name.name).bind fun further _ _ =>
          ih targeted.right ((served.mono grows).mono further)
      exact ⟨targeted.left, served⟩
  | case3 stmt rest notFunction ih => exact ih targeted.right served

theorem declareNames (served : Served frames frame names) (more : List String) :
    Safe frames targets (fun later _ => Served later frame (more ++ names))
      (Exec.declareNames frame more) := by
  induction more generalizing frames names with
  | nil => exact fun machine grows sound => ⟨rfl, .refl _, sound, served.mono grows⟩
  | cons name more ih =>
      have owned : Safe frames targets
          (fun later owned => owned = true → later.Binds frame name)
          (Exec.read (·.frames.owns frame name)) :=
        read fun _ _ _ owned => .of_owns owned
      have rest {later : Frames Value} (served : Served later frame (name :: names)) :
          Safe later targets (fun last _ => Served last frame (name :: more ++ names))
            (Exec.declareNames frame more) :=
        (ih served).weaken fun _ _ all => all.sub (by simp)
      refine owned.bind fun grows present bound => ?_
      cases present with
      | false =>
          exact (defineServed undefined_sound (served.mono grows) name).bind
            fun _ _ served => rest served
      | true => exact rest ((served.mono grows).cons fun _ => bound rfl)

/-! ## Operators -/

theorem applyBinary (op : BinaryOp) (left right : Value) :
    Safe frames targets Value.Sound (Exec.applyBinary op left right) := by
  have results : Safe frames targets
      (fun later result => ∀ value, result = Except.ok value → value.Sound later)
      (Exec.read fun machine => Value.binary machine.arrays op left right) :=
    read fun _ _ _ _ result => binary_sound result
  exact results.bind fun _ _ good => ofFault good

theorem isUnbound (frame : FrameId) (operand : Expr) :
    Safe frames targets AnyEnd (Exec.isUnbound frame operand) := by
  unfold Exec.isUnbound
  split
  · exact read fun _ _ _ => trivial
  · exact pure trivial

end Exec.Agree

end LoopCapture
