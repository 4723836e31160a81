import LoopCapture.Proofs.Simulation.Pairing

/-!
# Variables of paired frames

From paired frames a name leads to variables that stand for each other, and assigning to them keeps
the machines paired. `this` is looked up but never assigned.
-/

set_option autoImplicit false

namespace LoopCapture

variable {diff : Difference} {pairing : Pairing} {first second : Machine}
variable {name : String} {e' e : FrameId} {link : Link}

/-- Frames whose variables of the given name stand for each other: those of a pair, or the frame of
an iteration and the frame of the function that has the iteration variable for a parameter. -/
inductive OwnerMatch (pairing : Pairing) (frames : Frames Value) (name : String) :
    FrameId → FrameId → Prop where
  | paired {o o' : FrameId} {link : Link} : pairing.frames o o' link → link ≠ .blank →
      OwnerMatch pairing frames name o o'
  | held {e o o' : FrameId} {frame : Frame Value} :
      pairing.frames e o' (.wrapped (some (o, name))) → frames.frame? e = some frame →
      frame.slots.get? name = none → OwnerMatch pairing frames name o o'

/-- What lookups of a name on both sides find. -/
inductive FoundMatch (diff : Difference) (pairing : Pairing) (first second : Frames Value)
    (name : String) : Option FrameId → Option FrameId → Prop where
  | absent : FoundMatch diff pairing first second name none none
  | present {o o' : FrameId} {frame frame' : Frame Value} {value value' : Value} :
      first.frame? o = some frame → frame.slots.get? name = some value →
      second.frame? o' = some frame' → frame'.slots.get? name = some value' →
      ValueMatch diff pairing value value' → OwnerMatch pairing first name o o' →
      FoundMatch diff pairing first second name (some o) (some o')

/-! ## Reading -/

/-- An empty or absent frame in between does not change what a name means above it. -/
theorem WayUp.find? {frames : Frames Value} (ordered : frames.Ordered) {under outer : Nat}
    {param : Option String} (way : WayUp frames under outer param) (different : param ≠ some name) :
    frames.find? under name = frames.find? outer name := by
  cases param with
  | none => rw [show under = outer from way]
  | some held =>
      obtain ⟨frame, found, parentIs, others⟩ := way
      exact Frames.find?_parent ordered found parentIs (others name fun same => different (by rw [same]))

theorem WayUp.define_ne {frames : Frames Value} {under outer o : FrameId} {β : Type}
    {holder : Option (β × String)} (way : WayUp frames under outer (holder.map Prod.snd))
    (different : holder.isSome → o ≠ under) {value : Value} :
    WayUp (frames.define o name value) under outer (holder.map Prod.snd) := by
  cases holder with
  | none => exact way
  | some _ =>
      obtain ⟨frame, found, rest⟩ := way
      exact ⟨frame, by rw [Frames.frame?_define_ne (different rfl), found], rest⟩

theorem ParentMatch.of_some {q : FrameId} {parent : Option FrameId}
    (parents : ParentMatch pairing (some q) parent) :
    ∃ q' link, parent = some q' ∧ pairing.frames q q' link := by
  cases parents with
  | above pair => exact ⟨_, _, rfl, pair⟩

theorem ParentMatch.of_none {parent : Option FrameId} (parents : ParentMatch pairing none parent) :
    parent = none := by
  cases parents; rfl

theorem Paired.find_own (paired : Paired diff pairing first second)
    (pair : pairing.frames e e' link) (solid : link ≠ .blank) {frame frame' : Frame Value}
    (found : first.frames.frame? e = some frame) (found' : second.frames.frame? e' = some frame')
    (slots : SlotMatch diff pairing (frame.slots.get? name) (frame'.slots.get? name))
    {value : Value} (owned : frame.slots.get? name = some value) :
    FoundMatch diff pairing first.frames second.frames name
      (first.frames.find? e name) (second.frames.find? e' name) := by
  rw [owned] at slots
  obtain ⟨value', owned', values⟩ := slots.of_some
  rw [Frames.find?_own paired.ordered found owned, Frames.find?_own paired.ordered' found' owned']
  exact .present found owned found' owned' values (.paired pair solid)

/-- Code that may use `arguments` does not run directly in a wrapped body. -/
theorem Paired.clear_same (paired : Paired diff pairing first second)
    (pair : pairing.frames e e' link) (solid : link ≠ .blank) (clear : pairing.clear e) :
    link = .same := by
  obtain ⟨_, _, samePair, _, _⟩ := paired.clear clear
  exact (paired.unique pair samePair (.inl ⟨rfl, solid, nofun⟩)).2.2

theorem Paired.clear_parent (paired : Paired diff pairing first second) {q : FrameId}
    (clear : pairing.clear e) {frame : Frame Value} (found : first.frames.frame? e = some frame)
    (missing : frame.slots.get? "arguments" = none) (parentIs : frame.parent = some q) :
    pairing.clear q := by
  obtain ⟨_, _, _, clearFound, ownOrAbove⟩ := paired.clear clear
  rw [found] at clearFound
  obtain rfl := Option.some.inj clearFound
  cases ownOrAbove with
  | inl own => rw [missing] at own; cases own
  | inr above => exact above q parentIs

theorem WrappedFrames.Valid.outer_lt {around : WrappedFrames} {e e' : Nat}
    {holder : Option (FrameId × String)} (ordered' : second.frames.Ordered)
    (valid : around.Valid diff pairing first.frames second.frames e e' holder) :
    around.outer' < e' := by
  have underBelow : around.under' < e' :=
    Nat.lt_trans (ordered' valid.blank valid.blankParent) (ordered' valid.frame' valid.parent')
  have way := valid.way'
  cases holder with
  | none => exact (show around.under' = around.outer' from way) ▸ underBelow
  | some _ =>
      obtain ⟨held, heldFound, heldParent, _⟩ := way
      exact Nat.lt_trans (ordered' heldFound heldParent) underBelow

/-- From paired frames a name leads to variables that stand for each other. -/
theorem Paired.find_match (paired : Paired diff pairing first second) (notThis : name ≠ "this")
    {e e' : Nat} (pair : pairing.frames e e' link)
    (visible : name = "arguments" → pairing.clear e) :
    FoundMatch diff pairing first.frames second.frames name
      (first.frames.find? e name) (second.frames.find? e' name) := by
  -- The induction is on the second side: only there a blank frame leads to another one.
  induction e' using Nat.strongRecOn generalizing e link with
  | ind e' outerIH =>
      cases paired.frame pair with
      | @same frame frame' found found' slots parents =>
          cases owned : frame.slots.get? name with
          | some value => exact paired.find_own pair nofun found found' (slots name) owned
          | none =>
              have owned' := (owned ▸ slots name).of_none
              cases parentIs : frame.parent with
              | none =>
                  have parentIs' := (parentIs ▸ parents).of_none
                  rw [Frames.find?_root paired.ordered found parentIs owned,
                    Frames.find?_root paired.ordered' found' parentIs' owned']
                  exact .absent
              | some q =>
                  obtain ⟨q', k, parentIs', above⟩ := (parentIs ▸ parents).of_some
                  rw [Frames.find?_parent paired.ordered found parentIs owned,
                    Frames.find?_parent paired.ordered' found' parentIs' owned']
                  refine outerIH q' (paired.ordered' found' parentIs') above fun isArguments => ?_
                  exact paired.clear_parent (visible isArguments) found (isArguments ▸ owned) parentIs
      | @wrapped holder around valid =>
          have notArguments : name ≠ "arguments" := by
            intro isArguments
            cases paired.clear_same pair nofun (visible isArguments)
          obtain ⟨ownSlots, heldSlots⟩ := valid.slots name notThis notArguments
          cases owned : around.frame.slots.get? name with
          | some value =>
              refine paired.find_own pair nofun valid.frame valid.frame' (ownSlots (.inr ?_)) owned
              rw [owned]
              rfl
          | none =>
              rw [Frames.find?_parent paired.ordered valid.frame valid.parent owned]
              by_cases isParam : holder.map Prod.snd = some name
              · obtain ⟨held, value, value', heldFound, heldOwned, owned', values⟩ :=
                  heldSlots isParam owned
                obtain ⟨⟨id, param⟩, rfl, rfl⟩ := Option.map_eq_some_iff.mp isParam
                obtain ⟨rfl, _⟩ := valid.holderIs rfl
                rw [Frames.find?_own paired.ordered heldFound heldOwned,
                  Frames.find?_own paired.ordered' valid.frame' owned']
                exact .present heldFound heldOwned valid.frame' owned' values
                  (.held pair valid.frame owned)
              · have owned' := (owned ▸ ownSlots (.inl isParam)).of_none
                have blankOwned : around.blank.slots.get? name = none := by
                  rw [valid.blankSlots]
                  rfl
                rw [valid.way.find? paired.ordered isParam,
                  Frames.find?_parent paired.ordered' valid.frame' valid.parent' owned',
                  Frames.find?_parent paired.ordered' valid.blank valid.blankParent blankOwned,
                  valid.way'.find? paired.ordered' isParam]
                exact outerIH around.outer' (valid.outer_lt paired.ordered') valid.outer
                  fun isArguments => absurd isArguments notArguments
      | @blank frame frame' q' link _ found found' empty parentIs' above =>
          rw [Frames.find?_parent paired.ordered' found' parentIs' (by rw [empty]; rfl)]
          exact outerIH q' (paired.ordered' found' parentIs') above visible

theorem Paired.get_match (paired : Paired diff pairing first second) (notThis : name ≠ "this")
    (pair : pairing.frames e e' link) (visible : name = "arguments" → pairing.clear e) :
    SlotMatch diff pairing (first.frames.get? e name) (second.frames.get? e' name) := by
  have found := paired.find_match notThis pair visible
  generalize leftIs : first.frames.find? e name = left at found
  generalize rightIs : second.frames.find? e' name = right at found
  cases found with
  | absent =>
      rw [Frames.get?_of_find?_none leftIs, Frames.get?_of_find?_none rightIs]
      exact .none
  | present found owned found' owned' values =>
      rw [Frames.get?_of_find? leftIs found, Frames.get?_of_find? rightIs found', owned, owned']
      exact .some values

/-- `this` is the same on both sides, also where the wrapping function has its own. -/
theorem Paired.this_match (paired : Paired diff pairing first second) {e e' : Nat}
    (pair : pairing.frames e e' link) :
    ∃ value value', first.frames.get? e "this" = some value ∧
      second.frames.get? e' "this" = some value' ∧ ValueMatch diff pairing value value' := by
  induction e' using Nat.strongRecOn generalizing e link with
  | ind e' outerIH =>
      have bound := paired.this pair
      cases paired.frame pair with
      | @same frame frame' found found' slots parents =>
          cases owned : frame.slots.get? "this" with
          | some value =>
              obtain ⟨value', owned', values⟩ := (owned ▸ slots "this").of_some
              have here := Frames.find?_own paired.ordered found owned
              have here' := Frames.find?_own paired.ordered' found' owned'
              exact ⟨value, value', by rw [Frames.get?_of_find? here found, owned],
                by rw [Frames.get?_of_find? here' found', owned'], values⟩
          | none =>
              have owned' := (owned ▸ slots "this").of_none
              cases parentIs : frame.parent with
              | none =>
                  rw [Frames.get?_of_find?_none
                    (Frames.find?_root paired.ordered found parentIs owned)] at bound
                  cases bound
              | some q =>
                  obtain ⟨q', k, parentIs', above⟩ := (parentIs ▸ parents).of_some
                  rw [Frames.get?_congr_find?
                      (Frames.find?_parent paired.ordered found parentIs owned),
                    Frames.get?_congr_find?
                      (Frames.find?_parent paired.ordered' found' parentIs' owned')]
                  exact outerIH q' (paired.ordered' found' parentIs') above
      | @wrapped holder around valid =>
          have notParam : holder.map Prod.snd ≠ some "this" := by
            intro isParam
            obtain ⟨⟨id, param⟩, rfl, rfl⟩ := Option.map_eq_some_iff.mp isParam
            exact (valid.holderIs rfl).2 rfl
          have upwards : first.frames.find? e "this" = first.frames.find? around.outer "this" := by
            rw [Frames.find?_parent paired.ordered valid.frame valid.parent valid.noThis,
              valid.way.find? paired.ordered notParam]
          have here' := Frames.find?_own paired.ordered' valid.frame' valid.this'
          refine ⟨around.this, around.this', ?_, ?_, valid.thisMatch⟩
          · rw [Frames.get?_congr_find? upwards, valid.this]
          · rw [Frames.get?_of_find? here' valid.frame', valid.this']
      | @blank frame frame' q' link _ found found' empty parentIs' above =>
          rw [Frames.get?_congr_find?
            (Frames.find?_parent paired.ordered' found' parentIs' (by rw [empty]; rfl))]
          exact outerIH q' (paired.ordered' found' parentIs') above

/-! ## Assigning -/

theorem OwnerMatch.second_paired {frames : Frames Value} {o o' : FrameId}
    (owners : OwnerMatch pairing frames name o o') :
    ∃ e link, pairing.frames e o' link ∧ link ≠ .blank := by
  cases owners with
  | paired pair solid => exact ⟨_, _, pair, solid⟩
  | held pair => exact ⟨_, _, pair, nofun⟩

/-- An assignment hits both frames of an ordinary pair or neither. -/
theorem Paired.owner_same (paired : Paired diff pairing first second) {o o' d d' : FrameId}
    (owners : OwnerMatch pairing first.frames name o o') (pair : pairing.frames d d' .same) :
    o = d ↔ o' = d' := by
  cases owners with
  | paired owner solid =>
      constructor
      · intro same
        exact (paired.unique owner pair (.inl ⟨same, solid, nofun⟩)).2.1
      · intro same
        exact (paired.unique owner pair (.inr same)).1
  | held owner =>
      constructor
      · intro same
        exact absurd same.symm ((paired.holder owner).1 _ _ _ pair)
      · intro same
        cases (paired.unique owner pair (.inr same)).2.2

/-- Only where the first side does without block scopes is a frame blank. -/
theorem Paired.solid (paired : Paired diff pairing first second) (pair : pairing.frames e e' link)
    (allowed : diff = .scoping → link ≠ .blank) : link ≠ .blank := by
  rintro rfl
  cases paired.frame pair with
  | blank isScoping => exact allowed isScoping rfl

section Define

variable {name : String} {value value' : Value} {o o' : FrameId}
variable {d d' : FrameId}

theorem FrameMatch.define_same (paired : Paired diff pairing first second)
    (owners : OwnerMatch pairing first.frames name o o')
    (values : ValueMatch diff pairing value value') (pair : pairing.frames d d' .same) :
    FrameMatch diff pairing (first.frames.define o name value)
      (second.frames.define o' name value') d d' .same := by
  have together := paired.owner_same owners pair
  cases paired.frame pair with
  | @same frame frame' found found' slots parents =>
      by_cases here : o = d
      · obtain rfl := here
        obtain rfl := together.mp rfl
        refine .same (Frames.frame?_define_self found name value)
          (Frames.frame?_define_self found' name value') (fun other => ?_) parents
        simp only [Entries.get?_put]
        by_cases same : other = name
        · simp only [same, if_true]
          exact .some values
        · simp only [same, if_false]
          exact slots other
      · have there : o' ≠ d' := fun same => here (together.mpr same)
        exact .same (by rw [Frames.frame?_define_ne here, found])
          (by rw [Frames.frame?_define_ne there, found']) slots parents

/-- Assigning to the iteration variable on the first side and to the parameter on the second. -/
theorem WrappedFrames.Valid.define_held (paired : Paired diff pairing first second)
    (notThis : name ≠ "this") (values : ValueMatch diff pairing value value')
    {around : WrappedFrames} (pair : pairing.frames d d' (.wrapped (some (o, name))))
    (valid : around.Valid diff pairing first.frames second.frames d d' (some (o, name)))
    (missing : around.frame.slots.get? name = none) :
    FrameMatch diff pairing (first.frames.define o name value)
      (second.frames.define d' name value') d d' (.wrapped (some (o, name))) := by
  obtain ⟨rfl, _⟩ := valid.holderIs rfl
  have notSelf : around.under ≠ d := (paired.holder pair).1 _ _ _ pair |>.symm
  have notBlock : d' ≠ around.block := fun same => valid.blockFree _ _ (same ▸ pair)
  have notUnder : d' ≠ around.under' := fun same => valid.underFree rfl _ _ (same ▸ pair)
  obtain ⟨held, heldFound, heldParent, heldOthers⟩ := valid.way
  obtain ⟨held', heldFound', heldParent', heldOthers'⟩ := valid.way'
  refine .wrapped { around with
    frame' := { around.frame' with slots := around.frame'.slots.put name value' } } ?_
  refine
    { valid with
      frame := by rw [Frames.frame?_define_ne notSelf, valid.frame]
      way := ⟨_, Frames.frame?_define_self heldFound name value, heldParent, fun other different => ?_⟩
      frame' := Frames.frame?_define_self valid.frame' name value'
      blank := by rw [Frames.frame?_define_ne notBlock, valid.blank]
      way' := ⟨held', by rw [Frames.frame?_define_ne notUnder, heldFound'], heldParent', heldOthers'⟩
      slots := fun other otherThis otherArguments => ?_
      this := by rw [Frames.get?_define_ne _ _ _ (Ne.symm notThis), valid.this]
      this' := by
        simp only [Entries.get?_put, Ne.symm notThis, if_false]
        exact valid.this' }
  · have different : other ≠ name := different
    simp only [Entries.get?_put, different, if_false]
    exact heldOthers other different
  · obtain ⟨own, _⟩ := valid.slots other otherThis otherArguments
    by_cases same : other = name
    · subst same
      refine ⟨fun shown => ?_, fun _ _ => ?_⟩
      · simp [missing] at shown
      · refine ⟨_, value, value', Frames.frame?_define_self heldFound other value, ?_, ?_, values⟩
        · simp [Entries.get?_put]
        · simp [Entries.get?_put]
    · refine ⟨fun shown => ?_, fun isParam => absurd (Option.some.inj isParam).symm same⟩
      simp only [Entries.get?_put, same, if_false]
      exact own shown

/-- Assigning in the frame of the body on the first side and in that of the function on the
second. -/
theorem WrappedFrames.Valid.define_own (paired : Paired diff pairing first second)
    (notThis : name ≠ "this") (values : ValueMatch diff pairing value value')
    {around : WrappedFrames} {holder : Option (FrameId × String)}
    (pair : pairing.frames d d' (.wrapped holder))
    (valid : around.Valid diff pairing first.frames second.frames d d' holder) :
    FrameMatch diff pairing (first.frames.define d name value)
      (second.frames.define d' name value') d d' (.wrapped holder) := by
  have notHeld : holder.isSome → d ≠ around.under := by
    intro isSome
    obtain ⟨⟨id, param⟩, rfl⟩ := Option.isSome_iff_exists.mp isSome
    exact (valid.holderIs rfl).1 ▸ (paired.holder pair).1 _ _ _ pair
  have notBlock : d' ≠ around.block := fun same => valid.blockFree _ _ (same ▸ pair)
  have notUnder : holder.isSome → d' ≠ around.under' :=
    fun isSome same => valid.underFree isSome _ _ (same ▸ pair)
  refine .wrapped { around with
    frame := { around.frame with slots := around.frame.slots.put name value }
    frame' := { around.frame' with slots := around.frame'.slots.put name value' } } ?_
  refine
    { valid with
      frame := Frames.frame?_define_self valid.frame name value
      way := valid.way.define_ne notHeld
      frame' := Frames.frame?_define_self valid.frame' name value'
      blank := by rw [Frames.frame?_define_ne notBlock, valid.blank]
      way' := valid.way'.define_ne notUnder
      slots := fun other otherThis otherArguments => ?_
      noThis := by
        simp only [Entries.get?_put, Ne.symm notThis, if_false]
        exact valid.noThis
      this := by rw [Frames.get?_define_ne _ _ _ (Ne.symm notThis), valid.this]
      this' := by
        simp only [Entries.get?_put, Ne.symm notThis, if_false]
        exact valid.this' }
  obtain ⟨own, held⟩ := valid.slots other otherThis otherArguments
  simp only [Entries.get?_put]
  by_cases same : other = name
  · simp only [same, if_true]
    exact ⟨fun _ => .some values, fun _ impossible => by cases impossible⟩
  · simp only [same, if_false]
    refine ⟨own, fun isParam missing => ?_⟩
    obtain ⟨frame, kept, kept', frameFound, rest⟩ := held isParam missing
    have isSome : holder.isSome := by simpa using congrArg Option.isSome isParam
    exact ⟨frame, kept, kept', by rw [Frames.frame?_define_ne (notHeld isSome), frameFound], rest⟩

theorem WrappedFrames.Valid.define_elsewhere (notThis : name ≠ "this") {around : WrappedFrames}
    {holder : Option (FrameId × String)}
    (valid : around.Valid diff pairing first.frames second.frames d d' holder) (notSelf : o ≠ d)
    (notHeld : holder.isSome → o ≠ around.under) (notSelf' : o' ≠ d')
    (notBlock : o' ≠ around.block) (notUnder : holder.isSome → o' ≠ around.under') :
    FrameMatch diff pairing (first.frames.define o name value)
      (second.frames.define o' name value') d d' (.wrapped holder) := by
  refine .wrapped around
    { valid with
      frame := by rw [Frames.frame?_define_ne notSelf, valid.frame]
      way := valid.way.define_ne notHeld
      frame' := by rw [Frames.frame?_define_ne notSelf', valid.frame']
      blank := by rw [Frames.frame?_define_ne notBlock, valid.blank]
      way' := valid.way'.define_ne notUnder
      slots := fun other otherThis otherArguments => ?_
      this := by rw [Frames.get?_define_ne _ _ _ (Ne.symm notThis), valid.this] }
  obtain ⟨own, held⟩ := valid.slots other otherThis otherArguments
  refine ⟨own, fun isParam missing => ?_⟩
  obtain ⟨frame, kept, kept', frameFound, rest⟩ := held isParam missing
  have isSome : holder.isSome := by simpa using congrArg Option.isSome isParam
  exact ⟨frame, kept, kept', by rw [Frames.frame?_define_ne (notHeld isSome), frameFound], rest⟩

theorem FrameMatch.define (paired : Paired diff pairing first second) (notThis : name ≠ "this")
    (owners : OwnerMatch pairing first.frames name o o')
    (values : ValueMatch diff pairing value value') {link : Link}
    (pair : pairing.frames d d' link) :
    FrameMatch diff pairing (first.frames.define o name value)
      (second.frames.define o' name value') d d' link := by
  cases link with
  | same => exact FrameMatch.define_same paired owners values pair
  | wrapped holder =>
      cases paired.frame pair with
      | wrapped around valid =>
          obtain ⟨e, link, ownerPair, _⟩ := owners.second_paired
          have notBlock : o' ≠ around.block := fun same => valid.blockFree _ _ (same ▸ ownerPair)
          have notUnder : holder.isSome → o' ≠ around.under' :=
            fun isSome same => valid.underFree isSome _ _ (same ▸ ownerPair)
          cases owners with
          | paired owner solid =>
              by_cases here : o = d
              · subst here
                obtain ⟨_, rfl, _⟩ := paired.unique owner pair (.inl ⟨rfl, solid, nofun⟩)
                exact valid.define_own paired notThis values pair
              · have there : o' ≠ d' := fun same => here (paired.unique owner pair (.inr same)).1
                refine valid.define_elsewhere notThis here (fun isSome => ?_) there notBlock notUnder
                obtain ⟨⟨id, param⟩, rfl⟩ := Option.isSome_iff_exists.mp isSome
                exact (valid.holderIs rfl).1 ▸ (paired.holder pair).1 _ _ _ owner
          | held owner found missing =>
              by_cases there : o' = d'
              · subst there
                obtain ⟨rfl, _, links⟩ := paired.unique owner pair (.inr rfl)
                cases links
                rw [valid.frame] at found
                obtain rfl := Option.some.inj found
                exact valid.define_held paired notThis values pair missing
              · have here : o ≠ d := ((paired.holder owner).1 _ _ _ pair).symm
                refine valid.define_elsewhere notThis here (fun isSome => ?_) there notBlock notUnder
                intro same
                obtain ⟨⟨id, param⟩, rfl⟩ := Option.isSome_iff_exists.mp isSome
                obtain ⟨rfl, _⟩ := valid.holderIs rfl
                subst same
                have sameBody := (paired.holder owner).2 _ _ _ pair
                exact there (paired.unique owner pair (.inl ⟨sameBody.symm, nofun, nofun⟩)).2.1
  | blank =>
      cases paired.frame pair with
      | @blank frame frame' q' link isScoping found found' empty parentIs' above =>
          obtain ⟨_, _, ownerPair, solid⟩ := owners.second_paired
          have there : o' ≠ d' := fun same => solid (paired.unique ownerPair pair (.inr same)).2.2
          rw [← Frames.frame?_define_ne there name value'] at found'
          by_cases here : o = d
          · subst here
            exact .blank isScoping (Frames.frame?_define_self found name value) found' empty parentIs'
              above
          · rw [← Frames.frame?_define_ne here name value] at found
            exact .blank isScoping found found' empty parentIs' above

/-- Assigning values that stand for each other to variables that stand for each other keeps the
machines paired. -/
theorem Paired.define (paired : Paired diff pairing first second) (notThis : name ≠ "this")
    (owners : OwnerMatch pairing first.frames name o o')
    (values : ValueMatch diff pairing value value') :
    Paired diff pairing { first with frames := first.frames.define o name value }
      { second with frames := second.frames.define o' name value' } :=
  { paired with
    ordered := Frames.Ordered.define paired.ordered o name value
    ordered' := Frames.Ordered.define paired.ordered' o' name value'
    frame := fun pair => FrameMatch.define paired notThis owners values pair
    clear := by
      intro e clear
      obtain ⟨e', frame, pair, found, ownOrAbove⟩ := paired.clear clear
      by_cases here : o = e
      · subst here
        refine ⟨e', _, pair, Frames.frame?_define_self found name value, ?_⟩
        refine ownOrAbove.imp_left fun own => ?_
        simp only [Entries.get?_put]
        split
        · rfl
        · exact own
      · exact ⟨e', frame, pair, by rw [Frames.frame?_define_ne here, found], ownOrAbove⟩
    this := by
      intro e e' link pair
      rw [Frames.get?_define_ne _ _ _ (Ne.symm notThis)]
      exact paired.this pair }

end Define

end LoopCapture
