import LoopCapture.Proofs.Simulation.Lookup

/-!
# Machines that grow

New frames, arrays and stamps keep the machines paired. Some are made on one side only: the frames
around a wrapped body, and the `arguments` and the function values of its wrapping function.
-/

set_option autoImplicit false

namespace LoopCapture

variable {diff : Difference} {pairing later : Pairing} {first second : Machine}
variable {arrays' arrays : Arrays} {e' e : FrameId} {link : Link} {frame : Frame Value}

/-! ## Larger pairings -/

/-- Frames that are kept as they are, together with what `this` means in them. -/
structure Frames.Kept (old new : Frames Value) : Prop where
  frame : ∀ {id frame}, old.frame? id = some frame → new.frame? id = some frame
  this : ∀ {id value}, old.get? id "this" = some value → new.get? id "this" = some value

theorem Frames.Kept.refl (frames : Frames Value) : frames.Kept frames := ⟨id, id⟩

theorem Frames.get?_lt {frames : Frames Value} {id : Nat} {name : String} {value : Value}
    (found : frames.get? id name = some value) : id < frames.all.size := by
  cases held : frames.frame? id with
  | some frame => exact Frames.frame?_lt held
  | none =>
      have missing : frames.find? id name = none := by
        simp [Frames.find?, Frames.findWithin, held]
      rw [Frames.get?_of_find?_none missing] at found
      cases found

theorem Frames.Kept.add {frames : Frames Value} (ordered : frames.Ordered) (frame : Frame Value) :
    frames.Kept (frames.add frame).1 where
  frame := fun found => Frames.frame?_add_old found frame
  this := fun found => by rw [Frames.get?_add_old ordered (Frames.get?_lt found), found]

theorem WayUp.kept {old new : Frames Value} (kept : old.Kept new) {under outer : FrameId}
    {param : Option String} (way : WayUp old under outer param) : WayUp new under outer param := by
  cases param with
  | none => exact way
  | some name =>
      obtain ⟨frame, found, rest⟩ := way
      exact ⟨frame, kept.frame found, rest⟩

theorem ParentMatch.mono (grows : pairing ≤ later) {parent parent' : Option FrameId}
    (parents : ParentMatch pairing parent parent') : ParentMatch later parent parent' := by
  cases parents with
  | root => exact .root
  | above pair => exact .above (grows.frames pair)

/-- A pair stays one if frames are only added and new pairs are made of new frames. -/
theorem FrameMatch.mono {old old' new new' : Frames Value} (grows : pairing ≤ later)
    (kept : old.Kept new) (kept' : old'.Kept new')
    (fresh : ∀ {d d' k}, later.frames d d' k → pairing.frames d d' k ∨ old'.all.size ≤ d')
    (frames : FrameMatch diff pairing old old' e e' link) :
    FrameMatch diff later new new' e e' link := by
  cases frames with
  | same found found' slots parents =>
      exact .same (kept.frame found) (kept'.frame found') (fun name => (slots name).mono grows)
        (parents.mono grows)
  | @wrapped holder around valid =>
      refine .wrapped around
        { valid with
          frame := kept.frame valid.frame
          way := valid.way.kept kept
          frame' := kept'.frame valid.frame'
          blank := kept'.frame valid.blank
          way' := valid.way'.kept kept'
          outer := grows.frames valid.outer
          blockFree := fun d k pair => ?_
          underFree := fun isSome d k pair => ?_
          slots := fun name notThis notArguments => ?_
          this := kept.this valid.this
          thisMatch := valid.thisMatch.mono grows }
      · cases fresh pair with
        | inl oldPair => exact valid.blockFree d k oldPair
        | inr new => exact Nat.not_lt.mpr new (Frames.frame?_lt valid.blank)
      · cases fresh pair with
        | inl oldPair => exact valid.underFree isSome d k oldPair
        | inr new =>
            obtain ⟨_, rfl⟩ := Option.isSome_iff_exists.mp isSome
            obtain ⟨held, heldFound, _⟩ := valid.way'
            exact Nat.not_lt.mpr new (Frames.frame?_lt heldFound)
      · obtain ⟨own, held⟩ := valid.slots name notThis notArguments
        refine ⟨fun shown => (own shown).mono grows, fun isParam missing => ?_⟩
        obtain ⟨frame, value, value', found, owned, owned', values⟩ := held isParam missing
        exact ⟨frame, value, value', kept.frame found, owned, owned', values.mono grows⟩
  | blank isScoping found found' empty parentIs' above =>
      exact .blank isScoping (kept.frame found) (kept'.frame found') empty parentIs'
        (grows.frames above)

theorem TimerMatch.mono (grows : pairing ≤ later) {timer timer' : Timer Float Callback}
    (timers : TimerMatch diff pairing timer timer') : TimerMatch diff later timer timer' where
  due := timers.due
  id := timers.id
  function := timers.function.mono grows
  args := ValuesMatch.mono grows timers.args

theorem ArrayMatch.mono (grows : pairing ≤ later) {a a' : ArrayId}
    (items : ArrayMatch diff pairing arrays arrays' a a') :
    ArrayMatch diff later arrays arrays' a a' := by
  obtain ⟨values, values', found, found', match_⟩ := items
  exact ⟨values, values', found, found', ValuesMatch.mono grows match_⟩

theorem Paired.first_lt (paired : Paired diff pairing first second) {e e' : Nat}
    (pair : pairing.frames e e' link) : e < first.frames.all.size := by
  cases paired.frame pair with
  | same found _ _ _ => exact Frames.frame?_lt found
  | wrapped _ valid => exact Frames.frame?_lt valid.frame
  | blank _ found => exact Frames.frame?_lt found

theorem Paired.second_lt (paired : Paired diff pairing first second) {e e' : Nat}
    (pair : pairing.frames e e' link) : e' < second.frames.all.size := by
  cases paired.frame pair with
  | same _ found' _ _ => exact Frames.frame?_lt found'
  | wrapped _ valid => exact Frames.frame?_lt valid.frame'
  | blank _ _ found' => exact Frames.frame?_lt found'

theorem Paired.holder_lt (paired : Paired diff pairing first second) {id : Nat} {name : String}
    (pair : pairing.frames e e' (.wrapped (some (id, name)))) :
    id < first.frames.all.size := by
  cases paired.frame pair with
  | wrapped _ valid =>
      obtain ⟨rfl, _⟩ := valid.holderIs rfl
      obtain ⟨held, heldFound, _⟩ := valid.way
      exact Frames.frame?_lt heldFound

/-! ## Frames on one side -/

theorem Paired.addFrame_first (paired : Paired diff pairing first second)
    (parentBelow : ∀ parent : Nat, frame.parent = some parent → parent < first.frames.all.size) :
    Paired diff pairing { first with frames := (first.frames.add frame).1 } second :=
  { paired with
    ordered := Frames.Ordered.add paired.ordered parentBelow
    frame := fun pair => (paired.frame pair).mono (Pairing.le_refl _)
      (Frames.Kept.add paired.ordered frame) (Frames.Kept.refl _) .inl
    clear := fun clear => by
      obtain ⟨e', held, pair, found, rest⟩ := paired.clear clear
      exact ⟨e', held, pair, Frames.frame?_add_old found frame, rest⟩
    this := fun pair => by
      rw [Frames.get?_add_old paired.ordered (paired.first_lt pair)]
      exact paired.this pair }

theorem Paired.addFrame_second (paired : Paired diff pairing first second)
    (parentBelow : ∀ parent : Nat, frame.parent = some parent → parent < second.frames.all.size) :
    Paired diff pairing first { second with frames := (second.frames.add frame).1 } :=
  { paired with
    ordered' := Frames.Ordered.add paired.ordered' parentBelow
    frame := fun pair => (paired.frame pair).mono (Pairing.le_refl _)
      (Frames.Kept.refl _) (Frames.Kept.add paired.ordered' frame) .inl }

/-! ## A new pair of frames -/

def Pairing.withFrames (pairing : Pairing) (e e' : FrameId) (link : Link) (clear : Prop) : Pairing :=
  { pairing with
    frames := fun d d' k => pairing.frames d d' k ∨ (d = e ∧ d' = e' ∧ k = link)
    clear := fun d => pairing.clear d ∨ (d = e ∧ clear) }

theorem Pairing.le_withFrames (pairing : Pairing) (e e' : FrameId) (link : Link) (clear : Prop) :
    pairing ≤ pairing.withFrames e e' link clear :=
  ⟨.inl, .inl, id, id⟩

theorem Pairing.withFrames_new (pairing : Pairing) (e e' : FrameId) (link : Link) (clear : Prop) :
    (pairing.withFrames e e' link clear).frames e e' link :=
  .inr ⟨rfl, rfl, rfl⟩

/-- The newest frames of both sides become a pair. What has to be checked is only what the new pair
owns. -/
theorem Paired.addPair (paired : Paired diff pairing first second) {frame' : Frame Value}
    {clear : Prop}
    (parentBelow : ∀ parent : Nat, frame.parent = some parent → parent < first.frames.all.size)
    (parentBelow' : ∀ parent : Nat, frame'.parent = some parent → parent < second.frames.all.size)
    (new : FrameMatch diff
      (pairing.withFrames first.frames.all.size second.frames.all.size link clear)
      (first.frames.add frame).1 (second.frames.add frame').1
      first.frames.all.size second.frames.all.size link)
    (heldFree : ∀ {id : Nat} {name}, link = .wrapped (some (id, name)) →
      id < first.frames.all.size ∧ (∀ d d' k, pairing.frames d d' k → d ≠ id) ∧
      (∀ d d' other, ¬ pairing.frames d d' (.wrapped (some (id, other)))))
    (clearNew : clear → link = .same ∧ ((frame.slots.get? "arguments").isSome ∨
      ∀ q, frame.parent = some q → pairing.clear q))
    (thisNew : ((first.frames.add frame).1.get? first.frames.all.size "this").isSome) :
    Paired diff (pairing.withFrames first.frames.all.size second.frames.all.size link clear)
      { first with frames := (first.frames.add frame).1 }
      { second with frames := (second.frames.add frame').1 } := by
  have grows := pairing.le_withFrames first.frames.all.size second.frames.all.size link clear
  exact
    { paired with
      ordered := Frames.Ordered.add paired.ordered parentBelow
      ordered' := Frames.Ordered.add paired.ordered' parentBelow'
      unique := by
        intro e e' d d' k l pair other shared
        rcases pair with pair | ⟨rfl, rfl, rfl⟩ <;> rcases other with other | ⟨rfl, rfl, rfl⟩
        · exact paired.unique pair other shared
        · have below := paired.first_lt pair
          have below' := paired.second_lt pair
          rcases shared with ⟨rfl, _⟩ | rfl
          · exact absurd below (Nat.lt_irrefl _)
          · exact absurd below' (Nat.lt_irrefl _)
        · have below := paired.first_lt other
          have below' := paired.second_lt other
          rcases shared with ⟨rfl, _⟩ | rfl
          · exact absurd below (Nat.lt_irrefl _)
          · exact absurd below' (Nat.lt_irrefl _)
        · exact ⟨rfl, rfl, rfl⟩
      holder := by
        intro e e' id name pair
        rcases pair with pair | ⟨rfl, rfl, isLink⟩
        · refine ⟨fun d d' k other => ?_, fun d d' other otherPair => ?_⟩
          · rcases other with other | ⟨rfl, _, _⟩
            · exact (paired.holder pair).1 d d' k other
            · exact Nat.ne_of_gt (paired.holder_lt pair)
          · rcases otherPair with otherPair | ⟨_, _, otherLink⟩
            · exact (paired.holder pair).2 d d' other otherPair
            · exact absurd pair ((heldFree otherLink.symm).2.2 e e' name)
        · obtain ⟨below, unpaired, unheld⟩ := heldFree isLink.symm
          refine ⟨fun d d' k other => ?_, fun d d' other otherPair => ?_⟩
          · rcases other with other | ⟨rfl, _, _⟩
            · exact unpaired d d' k other
            · exact Nat.ne_of_gt below
          · rcases otherPair with otherPair | ⟨rfl, _, _⟩
            · exact absurd otherPair (unheld d d' other)
            · rfl
      frame := by
        intro e e' k pair
        rcases pair with pair | ⟨rfl, rfl, rfl⟩
        · refine (paired.frame pair).mono grows (Frames.Kept.add paired.ordered frame)
            (Frames.Kept.add paired.ordered' frame') fun newPair => ?_
          exact newPair.imp_right fun isNew => Nat.le_of_eq isNew.2.1.symm
        · exact new
      clear := by
        intro e isClear
        rcases isClear with isClear | ⟨rfl, isClear⟩
        · obtain ⟨e', held, pair, found, ownOrAbove⟩ := paired.clear isClear
          exact ⟨e', held, .inl pair, Frames.frame?_add_old found frame,
            ownOrAbove.imp_right fun above q parentIs => .inl (above q parentIs)⟩
        · obtain ⟨rfl, ownOrAbove⟩ := clearNew isClear
          exact ⟨_, frame, .inr ⟨rfl, rfl, rfl⟩, Frames.frame?_add_new _ _,
            ownOrAbove.imp_right fun above q parentIs => .inl (above q parentIs)⟩
      this := by
        intro e e' k pair
        rcases pair with pair | ⟨rfl, rfl, rfl⟩
        · rw [Frames.get?_add_old paired.ordered (paired.first_lt pair)]
          exact paired.this pair
        · exact thisNew
      array := fun pair => (paired.array pair).mono grows
      pending := paired.pending.imp fun _ _ timers => timers.mono grows }

/-- New frames under a pair that own variables of the same names. -/
theorem Paired.addSame (paired : Paired diff pairing first second) {q q' : FrameId}
    (pair : pairing.frames q q' link) (isFunction : Bool) {slots slots' : Entries String Value}
    (slotsMatch : ∀ name, SlotMatch diff pairing (slots.get? name) (slots'.get? name))
    {clear : Prop} (clearNew : clear → (slots.get? "arguments").isSome ∨ pairing.clear q) :
    Paired diff (pairing.withFrames first.frames.all.size second.frames.all.size .same clear)
      { first with frames := (first.frames.add ⟨some q, isFunction, slots⟩).1 }
      { second with frames := (second.frames.add ⟨some q', isFunction, slots'⟩).1 } := by
  have grows := pairing.le_withFrames first.frames.all.size second.frames.all.size .same clear
  have below := paired.first_lt pair
  refine paired.addPair (fun parent isParent => ?_) (fun parent isParent => ?_) ?_ ?_ ?_ ?_
  · exact Option.some.inj isParent ▸ below
  · exact Option.some.inj isParent ▸ paired.second_lt pair
  · exact .same (Frames.frame?_add_new _ _) (Frames.frame?_add_new _ _)
      (fun name => (slotsMatch name).mono grows) (.above (grows.frames pair))
  · intro id name impossible
    cases impossible
  · intro isClear
    refine ⟨rfl, (clearNew isClear).imp_right fun above r isParent => ?_⟩
    exact Option.some.inj isParent ▸ above
  · have ordered : (first.frames.add ⟨some q, isFunction, slots⟩).1.Ordered :=
      Frames.Ordered.add paired.ordered fun parent (isParent : some q = some parent) =>
        Option.some.inj isParent ▸ below
    have found := Frames.frame?_add_new first.frames ⟨some q, isFunction, slots⟩
    cases owned : slots.get? "this" with
    | some value =>
        rw [Frames.get?_of_find? (Frames.find?_own ordered found owned) found]
        exact owned ▸ rfl
    | none =>
        rw [Frames.get?_congr_find? (Frames.find?_parent ordered found rfl owned),
          Frames.get?_add_old paired.ordered below]
        exact paired.this pair

theorem Paired.addCopy (paired : Paired diff pairing first second)
    (pair : pairing.frames e e' .same) {clear : Prop} (clearOld : clear → pairing.clear e) :
    Paired diff (pairing.withFrames first.frames.all.size second.frames.all.size .same clear)
      { first with frames := (first.frames.copy e).1 }
      { second with frames := (second.frames.copy e').1 } := by
  have grows := pairing.le_withFrames first.frames.all.size second.frames.all.size .same clear
  cases paired.frame pair with
  | @same frame frame' found found' slots parents =>
      have copied : first.frames.copy e = first.frames.add frame := by simp [Frames.copy, found]
      have copied' : second.frames.copy e' = second.frames.add frame' := by
        simp [Frames.copy, found']
      rw [copied, copied']
      refine paired.addPair (fun parent isParent => ?_) (fun parent isParent => ?_) ?_ ?_ ?_ ?_
      · exact Nat.lt_trans (paired.ordered found isParent) (paired.first_lt pair)
      · exact Nat.lt_trans (paired.ordered' found' isParent) (paired.second_lt pair)
      · exact .same (Frames.frame?_add_new _ _) (Frames.frame?_add_new _ _)
          (fun name => (slots name).mono grows) (parents.mono grows)
      · intro id name impossible
        cases impossible
      · intro isClear
        obtain ⟨_, held, _, heldFound, ownOrAbove⟩ := paired.clear (clearOld isClear)
        rw [found] at heldFound
        obtain rfl := Option.some.inj heldFound
        exact ⟨rfl, ownOrAbove⟩
      · rw [Frames.get?_add_copy paired.ordered found]
        exact paired.this pair

/-- The frame of a block that the first side does without. -/
theorem Paired.addBlank (paired : Paired diff pairing first second) (isScoping : diff = .scoping)
    {q' : FrameId} (pair : pairing.frames e q' link) (isFunction : Bool) :
    Paired diff (pairing.withFrames e second.frames.all.size .blank False) first
      { second with frames := (second.frames.add ⟨some q', isFunction, []⟩).1 } := by
  have grows := pairing.le_withFrames e second.frames.all.size .blank False
  have below : ∀ parent : Nat, some q' = some parent → parent < second.frames.all.size :=
    fun parent isParent => Option.some.inj isParent ▸ paired.second_lt pair
  have added : Paired diff pairing first
      { second with frames := (second.frames.add ⟨some q', isFunction, []⟩).1 } :=
    paired.addFrame_second below
  exact
    { added with
      unique := by
        intro d d' c c' k l here other shared
        rcases here with here | ⟨rfl, rfl, rfl⟩ <;> rcases other with other | ⟨rfl, rfl, rfl⟩
        · exact paired.unique here other shared
        · rcases shared with ⟨_, _, impossible⟩ | rfl
          · exact absurd rfl impossible
          · exact absurd (paired.second_lt here) (Nat.lt_irrefl _)
        · rcases shared with ⟨_, impossible, _⟩ | rfl
          · exact absurd rfl impossible
          · exact absurd (paired.second_lt other) (Nat.lt_irrefl _)
        · exact ⟨rfl, rfl, rfl⟩
      holder := by
        intro d d' id name here
        rcases here with here | ⟨_, _, impossible⟩
        · refine ⟨fun c c' k other => ?_, fun c c' other held => ?_⟩
          · rcases other with other | ⟨rfl, _, _⟩
            · exact (paired.holder here).1 c c' k other
            · exact (paired.holder here).1 _ _ _ pair
          · rcases held with held | ⟨_, _, impossible⟩
            · exact (paired.holder here).2 c c' other held
            · cases impossible
        · cases impossible
      frame := by
        intro d d' k here
        rcases here with here | ⟨rfl, rfl, rfl⟩
        · refine (paired.frame here).mono grows (Frames.Kept.refl _)
            (Frames.Kept.add paired.ordered' _) fun newPair => ?_
          exact newPair.imp_right fun isNew => Nat.le_of_eq isNew.2.1.symm
        · obtain ⟨frame, found⟩ : ∃ frame, first.frames.frame? d = some frame :=
            ⟨_, Array.getElem?_eq_getElem (paired.first_lt pair)⟩
          exact .blank isScoping found (Frames.frame?_add_new _ _) rfl rfl (grows.frames pair)
      clear := by
        intro d isClear
        obtain ⟨d', held, here, found, ownOrAbove⟩ :=
          paired.clear (isClear.resolve_right fun impossible => impossible.2)
        exact ⟨d', held, .inl here, found,
          ownOrAbove.imp_right fun above q parentIs => .inl (above q parentIs)⟩
      this := by
        intro d d' k here
        rcases here with here | ⟨rfl, _, _⟩
        · exact paired.this here
        · exact paired.this pair
      array := fun arrays => (paired.array arrays).mono grows
      pending := paired.pending.imp fun _ _ timers => timers.mono grows }

/-- The pairing in which `arguments` means the same from one more frame. -/
def Pairing.withClear (pairing : Pairing) (e : FrameId) : Pairing :=
  { pairing with clear := fun d => pairing.clear d ∨ d = e }

theorem Pairing.le_withClear (pairing : Pairing) (e : FrameId) : pairing ≤ pairing.withClear e :=
  ⟨id, .inl, id, id⟩

theorem Paired.markClear (paired : Paired diff pairing first second)
    (pair : pairing.frames e e' .same) (found : first.frames.frame? e = some frame)
    (owned : (frame.slots.get? "arguments").isSome) :
    Paired diff (pairing.withClear e) first second := by
  have grows := pairing.le_withClear e
  exact
    { paired with
      frame := fun pair => (paired.frame pair).mono grows (Frames.Kept.refl _) (Frames.Kept.refl _)
        .inl
      clear := by
        intro d isClear
        rcases isClear with isClear | rfl
        · obtain ⟨d', held, pair, found, ownOrAbove⟩ := paired.clear isClear
          exact ⟨d', held, pair, found,
            ownOrAbove.imp_right fun above q parentIs => .inl (above q parentIs)⟩
        · exact ⟨e', frame, pair, found, .inl owned⟩
      array := fun pair => (paired.array pair).mono grows
      pending := paired.pending.imp fun _ _ timers => timers.mono grows }

/-! ## Arrays -/

def Pairing.withArray (pairing : Pairing) (a a' : ArrayId) : Pairing :=
  { pairing with arrays := fun b b' => pairing.arrays b b' ∨ (b = a ∧ b' = a') }

theorem Pairing.le_withArray (pairing : Pairing) (a a' : ArrayId) :
    pairing ≤ pairing.withArray a a' :=
  ⟨id, id, .inl, id⟩

theorem ArrayMatch.first_lt {a a' : Nat} (items : ArrayMatch diff pairing arrays arrays' a a') :
    a < arrays.size := by
  obtain ⟨_, _, found, _⟩ := items
  exact (Array.getElem?_eq_some_iff.mp found).1

theorem ArrayMatch.second_lt {a a' : Nat} (items : ArrayMatch diff pairing arrays arrays' a a') :
    a' < arrays'.size := by
  obtain ⟨_, _, _, found', _⟩ := items
  exact (Array.getElem?_eq_some_iff.mp found').1

theorem ArrayMatch.push {a a' : ArrayId} (items : ArrayMatch diff pairing arrays arrays' a a')
    (new new' : Array Value) :
    ArrayMatch diff pairing (arrays.push new) (arrays'.push new') a a' := by
  have below : a < arrays.size := items.first_lt
  have below' : a' < arrays'.size := items.second_lt
  obtain ⟨values, values', found, found', rest⟩ := items
  refine ⟨values, values', ?_, ?_, rest⟩
  · rw [Array.getElem?_push, if_neg (Nat.ne_of_lt below), found]
  · rw [Array.getElem?_push, if_neg (Nat.ne_of_lt below'), found']

theorem Paired.addArray (paired : Paired diff pairing first second) {items items' : Array Value}
    (values : ValuesMatch diff pairing items.toList items'.toList) :
    Paired diff (pairing.withArray first.arrays.size second.arrays.size)
      { first with arrays := first.arrays.push items }
      { second with arrays := second.arrays.push items' } := by
  have grows := pairing.le_withArray first.arrays.size second.arrays.size
  exact
    { paired with
      frame := fun pair => (paired.frame pair).mono grows (Frames.Kept.refl _) (Frames.Kept.refl _)
        .inl
      arraysUnique := by
        intro a a' b b' pair other
        rcases pair with pair | ⟨rfl, rfl⟩ <;> rcases other with other | ⟨rfl, rfl⟩
        · exact paired.arraysUnique pair other
        · have below := (paired.array pair).first_lt
          have below' := (paired.array pair).second_lt
          exact ⟨fun same => absurd same (Nat.ne_of_lt below),
            fun same => absurd same (Nat.ne_of_lt below')⟩
        · have below := (paired.array other).first_lt
          have below' := (paired.array other).second_lt
          exact ⟨fun same => absurd same (Nat.ne_of_gt below),
            fun same => absurd same (Nat.ne_of_gt below')⟩
        · exact ⟨fun _ => rfl, fun _ => rfl⟩
      array := by
        intro a a' pair
        rcases pair with pair | ⟨rfl, rfl⟩
        · exact ((paired.array pair).mono grows).push items items'
        · exact ⟨items, items', by simp, by simp, ValuesMatch.mono grows values⟩
      arraysSize := by
        simp only [Array.size_push]
        exact Nat.succ_le_succ paired.arraysSize
      pending := paired.pending.imp fun _ _ timers => timers.mono grows }

theorem Paired.addArray_second (paired : Paired diff pairing first second) (items : Array Value) :
    Paired diff pairing first { second with arrays := second.arrays.push items } :=
  { paired with
    array := by
      intro a a' pair
      have below' := (paired.array pair).second_lt
      obtain ⟨values, values', found, found', rest⟩ := paired.array pair
      refine ⟨values, values', found, ?_, rest⟩
      simp only [Array.getElem?_push, if_neg (Nat.ne_of_lt below'), found']
    arraysSize := by
      simp only [Array.size_push]
      exact Nat.le_succ_of_le paired.arraysSize }

theorem Paired.modifyArray (paired : Paired diff pairing first second) {a a' : ArrayId}
    (pair : pairing.arrays a a') {change change' : Array Value → Array Value}
    (changes : ∀ items items' : Array Value,
      ValuesMatch diff pairing items.toList items'.toList →
      ValuesMatch diff pairing (change items).toList (change' items').toList) :
    Paired diff pairing { first with arrays := first.arrays.modify a change }
      { second with arrays := second.arrays.modify a' change' } :=
  { paired with
    array := by
      intro b b' other
      have together := paired.arraysUnique pair other
      obtain ⟨values, values', found, found', rest⟩ := paired.array other
      by_cases here : a = b
      · have here' := together.mp here
        refine ⟨change values, change' values', ?_, ?_, changes _ _ rest⟩
        · simp [Array.getElem?_modify, here, found]
        · simp [Array.getElem?_modify, here', found']
      · have there : ¬ a' = b' := fun same => here (together.mpr same)
        refine ⟨values, values', ?_, ?_, rest⟩
        · simp [Array.getElem?_modify, here, found]
        · simp [Array.getElem?_modify, there, found']
    arraysSize := by
      simp only [Array.size_modify]
      exact paired.arraysSize }

/-! ## Stamps -/

def Pairing.withStamp (pairing : Pairing) (s s' : Stamp) : Pairing :=
  { pairing with stamps := fun t t' => pairing.stamps t t' ∨ (t = s ∧ t' = s') }

theorem Pairing.le_withStamp (pairing : Pairing) (s s' : Stamp) : pairing ≤ pairing.withStamp s s' :=
  ⟨id, id, id, .inl⟩

theorem Paired.addStamp (paired : Paired diff pairing first second) :
    Paired diff (pairing.withStamp first.stamp second.stamp)
      { first with stamp := first.stamp + 1 } { second with stamp := second.stamp + 1 } := by
  have grows := pairing.le_withStamp first.stamp second.stamp
  exact
    { paired with
      frame := fun pair => (paired.frame pair).mono grows (Frames.Kept.refl _) (Frames.Kept.refl _)
        .inl
      array := fun pair => (paired.array pair).mono grows
      stampsUnique := by
        intro s s' t t' pair other
        rcases pair with pair | ⟨rfl, rfl⟩ <;> rcases other with other | ⟨rfl, rfl⟩
        · exact paired.stampsUnique pair other
        · obtain ⟨below, below'⟩ := paired.stamp pair
          exact ⟨fun same => absurd same (Nat.ne_of_lt below),
            fun same => absurd same (Nat.ne_of_lt below')⟩
        · obtain ⟨below, below'⟩ := paired.stamp other
          exact ⟨fun same => absurd same (Nat.ne_of_gt below),
            fun same => absurd same (Nat.ne_of_gt below')⟩
        · exact ⟨fun _ => rfl, fun _ => rfl⟩
      stamp := by
        intro s s' pair
        rcases pair with pair | ⟨rfl, rfl⟩
        · obtain ⟨below, below'⟩ := paired.stamp pair
          exact ⟨Nat.lt_succ_of_lt below, Nat.lt_succ_of_lt below'⟩
        · exact ⟨Nat.lt_succ_self _, Nat.lt_succ_self _⟩
      pending := paired.pending.imp fun _ _ timers => timers.mono grows }

theorem Paired.addStamp_second (paired : Paired diff pairing first second) :
    Paired diff pairing first { second with stamp := second.stamp + 1 } :=
  { paired with
    stamp := fun pair => ⟨(paired.stamp pair).1, Nat.lt_succ_of_lt (paired.stamp pair).2⟩ }

/-! ## Timers -/

private theorem precedes_eq {timer timer' best best' : Timer Float Callback}
    (timers : TimerMatch diff pairing timer timer') (bests : TimerMatch diff pairing best best') :
    best'.precedes timer' = best.precedes timer := by
  simp only [Timer.precedes, timers.due, timers.id, bests.due, bests.id]

/-- The first timer is the same one on both sides. -/
theorem TimerMatch.first? {pending pending' : List (Timer Float Callback)}
    (timers : List.Forall₂ (TimerMatch diff pairing) pending pending') :
    Option.Rel (fun taken taken' => TimerMatch diff pairing taken.1 taken'.1 ∧
      List.Forall₂ (TimerMatch diff pairing) taken.2 taken'.2)
      (Clock.first? pending) (Clock.first? pending') := by
  induction timers with
  | nil => exact .none
  | @cons timer timer' rest rest' here others restIH =>
      unfold Clock.first?
      generalize Clock.first? rest = taken at restIH
      generalize Clock.first? rest' = taken' at restIH
      cases restIH with
      | none => exact .some ⟨here, .nil⟩
      | @some taken taken' best =>
          obtain ⟨best, left⟩ := taken
          obtain ⟨best', left'⟩ := taken'
          obtain ⟨bests, lefts⟩ := best
          simp only [precedes_eq here bests]
          split
          · exact .some ⟨bests, .cons here lefts⟩
          · exact .some ⟨here, others⟩

end LoopCapture
