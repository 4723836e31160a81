import LoopCapture.Proofs.Machine.Binding
import LoopCapture.Proofs.Machine.ExecLaws

/-!
# Environments

Whatever is asked of the frames of a machine, one after the other, every way up ends, and an
assignment changes one slot of one frame, which is seen from exactly those frames where the name
means that slot. A copy of a frame is a sibling: the two never see each other's slots, but go on
sharing those above them.
-/

set_option autoImplicit false

namespace LoopCapture

namespace Frames

variable {α : Type} {frames : Frames α} {id owner one other : FrameId} {name : String}

/-! ## Searches -/

/-- The search for a name as a loop that goes up from a frame, or from none, to its result. -/
inductive Searches (frames : Frames α) (name : String) : Option FrameId → Option FrameId → Prop where
  | ended : Searches frames name none none
  | here {id : FrameId} {frame : Frame α} : frames.frame? id = some frame →
      frame.slots.has name = true → Searches frames name (some id) (some id)
  | up {id : FrameId} {frame : Frame α} {result : Option FrameId} : frames.frame? id = some frame →
      frame.slots.has name = false → Searches frames name frame.parent result →
      Searches frames name (some id) result

theorem searches_find? (ordered : frames.Ordered) (name : String) (inside : id < frames.all.size) :
    frames.Searches name (some id) (frames.find? id name) := by
  induction id using Nat.strongRecOn with
  | _ id ih =>
      obtain ⟨frame, found⟩ : ∃ frame, frames.frame? id = some frame :=
        ⟨_, Array.getElem?_eq_getElem inside⟩
      rw [find?_eq ordered found]
      cases has : frame.slots.has name with
      | true => exact .here found has
      | false =>
          refine .up found has ?_
          cases isParent : frame.parent with
          | none => exact .ended
          | some parent =>
              have below := ordered found isParent
              exact ih parent below (Nat.lt_trans below inside)

theorem Ordered.acyclic (ordered : frames.Ordered) (id : FrameId) :
    ¬ Relation.TransGen frames.HasParent id id := by
  intro cycle
  obtain ⟨parent, ⟨frame, found, isParent⟩, way⟩ := Relation.TransGen.head'_iff.mp cycle
  exact Nat.not_lt.mpr (le_of_under ordered way) (ordered found isParent)

/-! ## Assignments -/

/-- An assignment to a variable that a frame has does not change where names are found. -/
theorem find?_define_owned (owned : frames.owns owner name = true) (value : α) (id : FrameId)
    (label : String) : (frames.define owner name value).find? id label = frames.find? id label := by
  refine (findWithin_congr (fun up _ => ?_) _).symm
  rw [frame?_define]
  split
  · subst up
    obtain ⟨frame, found, has⟩ := (owns_iff frames owner name).mp owned
    by_cases same : label = name <;> simp [found, Entries.has, Entries.get?_put, same, has]
  · rfl

theorem get?_define_owned (owned : frames.owns owner name = true) (value : α) (id : FrameId)
    (label : String) :
    (frames.define owner name value).get? id label =
      if label = name ∧ frames.find? id label = some owner then some value
      else frames.get? id label := by
  rw [get?, get?, find?_define_owned owned]
  cases foundAt : frames.find? id label with
  | none => simp
  | some up =>
      obtain ⟨frame, found, -⟩ := (owns_iff frames up label).mp (findWithin_eq_some foundAt).2
      by_cases here : owner = up <;> by_cases same : label = name <;>
        simp [found, here, same, Entries.get?_put, eq_comm]

/-- A definition is not seen from frames with another way up. -/
theorem get?_define_away (away : ¬ frames.Under id owner) (name : String) (value : α)
    (label : String) : (frames.define owner name value).get? id label = frames.get? id label := by
  refine (get?_congr fun up way => ?_).symm
  have elsewhere : owner ≠ up := fun same => away (same ▸ way)
  rw [frame?_define_ne elsewhere]

/-! ## Siblings -/

structure Siblings (frames : Frames α) (one other : FrameId) : Prop where
  different : one ≠ other
  parents : ∃ frame frame', frames.frame? one = some frame ∧ frames.frame? other = some frame' ∧
    frame.parent = frame'.parent

theorem siblings_add_copy {frame : Frame α} (found : frames.frame? id = some frame) :
    (frames.add frame).1.Siblings id frames.all.size where
  different := Nat.ne_of_lt (frame?_lt found)
  parents := ⟨frame, frame, frame?_add_old found frame, frame?_add_new frames frame, rfl⟩

namespace Siblings

theorem symm (siblings : frames.Siblings one other) : frames.Siblings other one := by
  obtain ⟨frame, frame', found, found', parents⟩ := siblings.parents
  exact ⟨siblings.different.symm, frame', frame, found', found, parents.symm⟩

theorem mono {later : Frames α} (siblings : frames.Siblings one other) (grows : frames.Grows later) :
    later.Siblings one other := by
  obtain ⟨frame, frame', found, found', parents⟩ := siblings.parents
  obtain ⟨grown, foundGrown, same, -⟩ := grows found
  obtain ⟨grown', foundGrown', same', -⟩ := grows found'
  exact ⟨siblings.different, grown, grown', foundGrown, foundGrown',
    same.trans (parents.trans same'.symm)⟩

theorem not_above (siblings : frames.Siblings one other) (ordered : frames.Ordered) :
    ¬ frames.Under one other := by
  intro way
  rcases Relation.ReflTransGen.cases_head way with same | ⟨parent, ⟨frame, found, isParent⟩, rest⟩
  · exact siblings.different same
  · obtain ⟨frameOne, frameOther, foundOne, foundOther, parents⟩ := siblings.parents
    obtain rfl := Option.some.inj (found.symm.trans foundOne)
    exact Nat.not_lt.mpr (le_of_under ordered rest) (ordered foundOther (parents ▸ isParent))

/-- No way up leads through two siblings. -/
theorem not_under (siblings : frames.Siblings one other) (ordered : frames.Ordered)
    (way : frames.Under id other) : ¬ frames.Under id one := by
  intro wayOne
  have unique : Relator.RightUnique frames.HasParent := by
    rintro child parent parent' ⟨frame, found, isParent⟩ ⟨frame', found', isParent'⟩
    obtain rfl := Option.some.inj (found.symm.trans found')
    exact Option.some.inj (isParent.symm.trans isParent')
  rcases Relation.ReflTransGen.total_of_right_unique unique way wayOne with above | above
  · exact siblings.symm.not_above ordered above
  · exact siblings.not_above ordered above

theorem find?_eq (siblings : frames.Siblings one other) (ordered : frames.Ordered)
    (absent : frames.owns one name = false) (absent' : frames.owns other name = false) :
    frames.find? one name = frames.find? other name := by
  obtain ⟨frame, frame', found, found', parents⟩ := siblings.parents
  have lacks : frame.slots.has name = false := by simpa [owns, found] using absent
  have lacks' : frame'.slots.has name = false := by simpa [owns, found'] using absent'
  rw [Frames.find?_eq ordered found, Frames.find?_eq ordered found', lacks, lacks', parents]
  rfl

end Siblings

end Frames

/-! ## Requests -/

/-- What can be asked of the frames of a machine. -/
inductive FrameRequest where
  | new (parent : Option FrameId) (isFunction : Bool)
  | copy (frame : FrameId)
  | define (frame : FrameId) (name : String) (value : Value)
  | set (frame : FrameId) (name : String) (value : Value)
  | get (frame : FrameId) (name : String)

namespace FrameRequest

/-- The frame that a request is about. -/
def subject? : FrameRequest → Option FrameId
  | .new parent _ => parent
  | .copy frame => some frame
  | .define frame _ _ => some frame
  | .set frame _ _ => some frame
  | .get frame _ => some frame

/-- The machine after a request. -/
def serve : FrameRequest → Machine → Machine
  | .new parent isFunction, machine =>
    { machine with frames := (machine.frames.new parent isFunction).1 }
  | .copy frame, machine => (Exec.copyFrame frame machine).machine
  | .define frame name value, machine => (Exec.define frame name value machine).machine
  | .set frame name value, machine => (Exec.setVariable frame name value machine).machine
  | .get frame name, machine => (Exec.getVariable frame name machine).machine

/-- A request adds a frame under one there is, defines a variable or changes nothing. -/
theorem serve_frames {machine : Machine} (ordered : machine.frames.Ordered) (request : FrameRequest)
    (known : ∀ id, request.subject? = some id → id < machine.frames.all.size) :
    (∃ frame, (∀ parent, frame.parent = some parent → parent < machine.frames.all.size) ∧
      (request.serve machine).frames = (machine.frames.add frame).1) ∨
    (∃ owner name value, (request.serve machine).frames = machine.frames.define owner name value) ∨
    (request.serve machine).frames = machine.frames := by
  cases request with
  | new parent isFunction => exact .inl ⟨_, known, rfl⟩
  | copy id =>
      have found : machine.frames.frame? id = some _ := Array.getElem?_eq_getElem (known id rfl)
      refine .inl ⟨_, fun parent isParent => ?_, by rw [serve, Exec.copyFrame_run found]; rfl⟩
      exact Nat.lt_trans (ordered found isParent) (known id rfl)
  | define frame name value => exact .inr (.inl ⟨frame, name, value, rfl⟩)
  | set frame name value =>
      cases found : machine.frames.find? frame name with
      | none => exact .inr (.inr (by rw [serve, Exec.setVariable_unbound found]; rfl))
      | some owner =>
          exact .inr (.inl ⟨owner, name, value, by rw [serve, Exec.setVariable_run found]; rfl⟩)
  | get frame name =>
      refine .inr (.inr ?_)
      cases found : machine.frames.get? frame name with
      | none => rw [serve, Exec.getVariable_unbound found]; rfl
      | some value => rw [serve, Exec.getVariable_run found]; rfl

end FrameRequest

namespace Machine

variable {start machine later : Machine} {one other : FrameId}

/-- The machines after requests, each about a frame there is. -/
inductive Evolves (start : Machine) : Machine → Prop where
  | start : Evolves start start
  | serve {machine : Machine} (request : FrameRequest) : Evolves start machine →
      (∀ id, request.subject? = some id → id < machine.frames.all.size) →
      Evolves start (request.serve machine)

theorem Evolves.ordered_grows (evolves : start.Evolves machine) (ordered : start.frames.Ordered) :
    machine.frames.Ordered ∧ start.frames.Grows machine.frames := by
  induction evolves with
  | start => exact ⟨ordered, .refl _⟩
  | serve request _ known ih =>
      obtain ⟨ordered, grows⟩ := ih
      rcases request.serve_frames ordered known with
        ⟨frame, below, same⟩ | ⟨owner, name, value, same⟩ | same
      · rw [same]
        exact ⟨ordered.add below, grows.trans (Frames.grows_add _ frame)⟩
      · rw [same]
        exact ⟨ordered.define owner name value, grows.trans (Frames.grows_define _ owner name value)⟩
      · rw [same]
        exact ⟨ordered, grows⟩

/-! ## The laws -/

/-- What a name gives where a frame is in use: a value, or the end of the computation. -/
def reads (machine : Machine) (frame : FrameId) (name : String) : Except Stop Value :=
  match Exec.getVariable frame name machine with
  | .done value _ => .ok value
  | .stopped stop _ => .error stop

theorem reads_eq (machine : Machine) (frame : FrameId) (name : String) :
    machine.reads frame name =
      (machine.frames.get? frame name).elim (.error (Exec.unbound name)) .ok := by
  cases found : machine.frames.get? frame name with
  | none => rw [reads, Exec.getVariable_unbound found]; rfl
  | some value => rw [reads, Exec.getVariable_run found]; rfl

/-- A slot of a frame gets a value, and all else stays as it is. -/
structure OneSlot (before after : Machine) (owner : FrameId) (name : String) (value : Value) :
    Prop where
  rest : { after with frames := before.frames } = before
  others : ∀ id, id ≠ owner → after.frames.frame? id = before.frames.frame? id
  slot : ∃ old new, before.frames.frame? owner = some old ∧ after.frames.frame? owner = some new ∧
    new.parent = old.parent ∧ new.isFunction = old.isFunction ∧ new.slots.names = old.slots.names ∧
    ∀ label, new.slots.get? label = if label = name then some value else old.slots.get? label

/-- What is done to the own slots of the first frame is not seen from the second one or below it,
but both share the slots above them. -/
structure Apart (machine : Machine) (one other : FrameId) : Prop where
  define : ∀ name value reader label, machine.frames.Under reader other →
    (Exec.define one name value machine).machine.reads reader label = machine.reads reader label
  set : ∀ writer name value reader label, machine.frames.find? writer name = some one →
    machine.frames.Under reader other →
    (Exec.setVariable writer name value machine).machine.reads reader label =
      machine.reads reader label
  shared : ∀ name, machine.frames.owns one name = false → machine.frames.owns other name = false →
    machine.frames.find? one name = machine.frames.find? other name ∧
    ∀ owner value, machine.frames.find? one name = some owner →
      (Exec.setVariable one name value machine).machine.reads other name = .ok value

theorem oneSlot_define {owner : FrameId} {name : String}
    (owned : machine.frames.owns owner name = true) (value : Value) :
    machine.OneSlot { machine with frames := machine.frames.define owner name value } owner name
      value where
  rest := rfl
  others id elsewhere := Frames.frame?_define_ne elsewhere.symm name value
  slot := by
    obtain ⟨frame, found, has⟩ := (Frames.owns_iff _ _ _).mp owned
    exact ⟨frame, _, found, Frames.frame?_define_self found name value, rfl, rfl,
      Entries.names_put has value, fun label => Entries.get?_put _ _ _ _⟩

theorem reads_define_owned {owner : FrameId} {name : String}
    (owned : machine.frames.owns owner name = true) (value : Value) (reader : FrameId)
    (label : String) :
    reads { machine with frames := machine.frames.define owner name value } reader label =
      if label = name ∧ machine.frames.find? reader label = some owner then .ok value
      else machine.reads reader label := by
  rw [reads_eq, reads_eq, Frames.get?_define_owned owned]
  split <;> rfl

theorem apart_of_siblings (ordered : machine.frames.Ordered)
    (siblings : machine.frames.Siblings one other) : machine.Apart one other := by
  have unseen (name : String) (value : Value) (reader : FrameId) (label : String)
      (below : machine.frames.Under reader other) :
      reads { machine with frames := machine.frames.define one name value } reader label =
        machine.reads reader label := by
    rw [reads_eq, reads_eq, Frames.get?_define_away (siblings.not_under ordered below)]
  refine ⟨unseen, ?_, ?_⟩
  · intro writer name value reader label found below
    rw [Exec.setVariable_run found]
    exact unseen name value reader label below
  · intro name absent absent'
    have same := siblings.find?_eq ordered absent absent'
    refine ⟨same, fun owner value found => ?_⟩
    rw [Exec.setVariable_run found]
    refine (reads_define_owned (Frames.findWithin_eq_some found).2 value other name).trans ?_
    rw [if_pos ⟨rfl, same ▸ found⟩]

/-- The laws of environments, after any requests to a machine that has had no frames. -/
theorem Evolves.environment_laws (blank : start.frames = .empty) (reached : start.Evolves machine) :
    (∀ id, ¬ Relation.TransGen machine.frames.HasParent id id) ∧
    (∀ id name, id < machine.frames.all.size →
      machine.frames.Searches name (some id) (machine.frames.find? id name)) ∧
    (∀ id name, machine.frames.find? id name = none →
      Exec.getVariable id name machine = .stopped (Exec.unbound name) machine ∧
      ∀ value, Exec.setVariable id name value machine = .stopped (Exec.unbound name) machine) ∧
    (∀ id name owner, machine.frames.find? id name = some owner →
      (∃ value, Exec.getVariable id name machine = .done value machine) ∧
      ∀ value, ∃ after, Exec.setVariable id name value machine = .done () after ∧
        machine.OneSlot after owner name value ∧
        ∀ reader label, after.frames.find? reader label = machine.frames.find? reader label ∧
          after.reads reader label =
            if label = name ∧ machine.frames.find? reader label = some owner then .ok value
            else machine.reads reader label) ∧
    (∀ id, id < machine.frames.all.size → ∃ after,
      Exec.copyFrame id machine = .done machine.frames.all.size after ∧
      (∀ name, after.reads machine.frames.all.size name = machine.reads id name) ∧
      ∀ later, after.Evolves later →
        later.Apart id machine.frames.all.size ∧ later.Apart machine.frames.all.size id) := by
  have none (id : FrameId) : start.frames.frame? id = none := by rw [blank]; rfl
  obtain ⟨ordered, -⟩ := reached.ordered_grows fun found => by simp [none] at found
  refine ⟨ordered.acyclic, fun id name => Frames.searches_find? ordered name, ?_, ?_, ?_⟩
  · intro id name missing
    exact ⟨Exec.getVariable_unbound (Frames.get?_of_find?_none missing),
      fun value => Exec.setVariable_unbound missing value⟩
  · intro id name owner found
    have owned := (Frames.findWithin_eq_some found).2
    obtain ⟨old, stored⟩ := Frames.Binds.exists_value (Option.isSome_of_eq_some found)
    refine ⟨⟨old, Exec.getVariable_run stored⟩, fun value => ?_⟩
    refine ⟨_, Exec.setVariable_run found value, oneSlot_define owned value, fun reader label => ?_⟩
    exact ⟨Frames.find?_define_owned owned value reader label,
      reads_define_owned owned value reader label⟩
  · intro id inside
    have found : machine.frames.frame? id = some _ := Array.getElem?_eq_getElem inside
    refine ⟨_, Exec.copyFrame_run found, fun name => ?_, fun later evolves => ?_⟩
    · rw [reads_eq, reads_eq, Frames.get?_add_copy ordered found]
    · obtain ⟨ordered, grows⟩ := evolves.ordered_grows (ordered.add fun parent isParent =>
        Nat.lt_trans (ordered found isParent) inside)
      have siblings := (Frames.siblings_add_copy found).mono grows
      exact ⟨apart_of_siblings ordered siblings, apart_of_siblings ordered siblings.symm⟩

/-- An assignment to a variable above, and a copy, in the frame of a loop. -/
theorem Evolves.environment_laws_loop :
    ∃ start machine : Machine, start.frames = .empty ∧ start.Evolves machine ∧
      machine.frames.find? 1 "n" = some 0 ∧
      (∃ after, Exec.setVariable 1 "n" .null machine = .done () after ∧
        after.reads 0 "n" = .ok .null) ∧
      ∃ after, Exec.copyFrame 1 machine = .done 2 after ∧ after.Apart 1 2 := by
  let start : Machine := ⟨.empty, #[], 0, .start 0, #[]⟩
  have outer : start.Evolves _ := .serve (.new none true) .start fun _ same => by cases same
  have named := outer.serve (.define 0 "n" .undefined) fun _ same => by cases same; decide
  have inner := named.serve (.new (some 0) false) fun _ same => by cases same; decide
  have reached := inner.serve (.define 1 "i" .undefined) fun _ same => by cases same; decide
  obtain ⟨-, -, -, assign, copy⟩ := reached.environment_laws rfl
  obtain ⟨after, assigned, -, seen⟩ := (assign 1 "n" 0 rfl).2 .null
  obtain ⟨copied, isCopy, -, apart⟩ := copy 1 (by decide)
  refine ⟨_, _, rfl, reached, rfl, ⟨after, assigned, ?_⟩, copied, isCopy, (apart _ .start).1⟩
  rw [(seen 0 "n").2]
  rfl

end Machine

end LoopCapture
