import LoopCapture.Proofs.Outline.Grammar
import LoopCapture.Proofs.Scope.Growth
import Mathlib.Data.List.Find

/-!
# The visits of a walk that collects scopes

The walk over a program is told as the list of its visits, each with what had been collected before
it. No name is ever lost: what a scope knows of a name may only turn into a function. So whatever
one visit has entered is still there at every later visit and at the end of the walk, and everything
that is there at the end was entered by some visit.
-/

set_option autoImplicit false

namespace LoopCapture

open Resolution

namespace Arena

variable {id : ScopeId}

theorem Grows.closestHoist_eq {first second : Arena} (grows : Grows first second)
    {ids : List ScopeId} (way : Way first (some id) ids) :
    second.closestHoist id = first.closestHoist id := by
  have same : ids.find? second.hoists = ids.find? first.hoists := by
    apply List.find?_congr
    intro other member
    exact grows.hoists_eq (way.lt_size other member)
  simp only [closestHoist, way.ancestors_eq, (grows.way way).ancestors_eq, same]

theorem Grows.upToHoist_eq {first second : Arena} (grows : Grows first second)
    {ids : List ScopeId} (way : Way first (some id) ids) :
    Collected.upToHoist second id = Collected.upToHoist first id := by
  simp only [Collected.upToHoist, grows.closestHoist_eq way, way.ancestors_eq,
    (grows.way way).ancestors_eq]

/-- The scope that a declaration is meant for. -/
def home (arena : Arena) (kind : BindingKind) (id : ScopeId) : ScopeId :=
  if kind = .var then arena.closestHoist id else id

theorem home_of_blockScoped (arena : Arena) {kind : BindingKind}
    (blockScoped : kind.isBlockScoped = true) (id : ScopeId) : arena.home kind id = id := by
  refine if_neg ?_
  rintro rfl
  cases blockScoped

theorem Sound.home_lt {arena : Arena} (sound : arena.Sound) (bound : id < arena.size)
    (kind : BindingKind) : arena.home kind id < arena.size := by
  unfold home
  split
  · obtain ⟨ids, way⟩ := sound.way id bound
    exact way.lt_size _ way.closestHoist_mem
  · exact bound

theorem Sound.home_eq {first second : Arena} (sound : first.Sound) (grows : Grows first second)
    (bound : id < first.size) (kind : BindingKind) :
    second.home kind id = first.home kind id := by
  obtain ⟨ids, way⟩ := sound.way id bound
  unfold home
  rw [grows.closestHoist_eq way]

end Arena

namespace Outline

/-- The kind of the scope that a node opens, if it opens one. -/
def opening (site : Site) (children : List Outline) : Option ScopeKind :=
  match site.node.form with
  | .function _ => some .hoist
  | .block => if site.node.slot = .functionBody then none else some .block
  | .loop _ => if (blockScopedHeader? (.node site children)).isSome then some .block else none
  | .catchClause => some .catch
  | .switch => some .block
  | _ => none

/-- The declarations that a node makes in the scope around it, those by `var` among them. -/
def namesAround (part : Outline) : List (BindingKind × Node) :=
  match part.label.node.form with
  | .function _ => (Collected.inSlot .functionName part.children).map (.fun, ·)
  | .declaration kind => (declaredIdents part).map fun site => (.ofDecl kind, site.node)
  | _ => []

end Outline

/-! ## The outermost scope -/

namespace Resolution

open Arena

def start (site : Site) : Collected := ⟨(Arena.empty.add .hoist site none).1, #[0], []⟩

theorem get?_start (site : Site) (id : ScopeId) :
    (start site).arena.get? id = if id = 0 then some ⟨.hoist, site, none, [], []⟩ else none := by
  show ((#[] : Array Scope).push ⟨.hoist, site, none, [], []⟩)[id]? = _
  rw [Array.getElem?_push]
  rfl

theorem sound_start (site : Site) : (start site).arena.Sound where
  upward id outer parent := by
    unfold parentOf at parent
    rw [get?_start] at parent
    split at parent <;> cases parent
  outermost id scope found _ := by
    rw [get?_start] at found
    split at found
    · assumption
    · cases found
  hoisting id scope found outermost := by
    rw [get?_start] at found
    split at found
    · obtain rfl := Option.some.inj found
      rfl
    · cases found
  linked := by
    have childless (id : ScopeId) : (start site).arena.childrenOf id = [] := by
      unfold childrenOf
      rw [get?_start]
      split <;> rfl
    have outermost (id : ScopeId) : (start site).arena.parentOf id = none := by
      unfold parentOf
      rw [get?_start]
      split <;> rfl
    exact ⟨fun id child => by simp [childless, outermost], fun id => by simp [childless]⟩

theorem binding?_start (site : Site) (id : ScopeId) (name : String) :
    (start site).arena.binding? id name = none := by
  unfold binding?
  rw [get?_start]
  split <;> rfl

end Resolution

namespace Resolution.Collected

open Arena Outline
variable {id : ScopeId}

/-! ## One declaration -/

/-- What later declarations keep of what has been collected. -/
structure Leads (before after : Collected) : Prop where
  grows : Grows before.arena after.arena
  bindings : ∀ id name binding, before.arena.binding? id name = some binding →
    ∃ kept, after.arena.binding? id name = some kept ∧
      (kept = binding ∨ kept.kind = .fun ∧ binding.kind.yieldsToFunction = true)
  conflicts : before.conflicts <+: after.conflicts
  scopeOf : ∀ (place : Nat) (id : ScopeId), before.scopeOf[place]? = some id →
    after.scopeOf[place]? = some id

namespace Leads

variable {first second third : Collected}

theorem refl (state : Collected) : Leads state state where
  grows := .refl _
  bindings _ _ binding known := ⟨binding, known, .inl rfl⟩
  conflicts := List.prefix_refl _
  scopeOf _ _ known := known

theorem trans (former : Leads first second) (latter : Leads second third) : Leads first third where
  grows := former.grows.trans latter.grows
  bindings id name binding known := by
    obtain ⟨middle, knownMiddle, change⟩ := former.bindings id name binding known
    obtain ⟨kept, knownKept, changeToo⟩ := latter.bindings id name middle knownMiddle
    refine ⟨kept, knownKept, ?_⟩
    rcases change with rfl | ⟨isFunction, yields⟩
    · exact changeToo
    · rcases changeToo with rfl | ⟨isFunctionToo, -⟩
      · exact .inr ⟨isFunction, yields⟩
      · exact .inr ⟨isFunctionToo, yields⟩
  conflicts := former.conflicts.trans latter.conflicts
  scopeOf place id known := latter.scopeOf place id (former.scopeOf place id known)

end Leads

/-- What a declaration can do. -/
inductive Declares (state : Collected) (id : ScopeId) (kind : BindingKind) (ident : Node) :
    Collected → Prop
  | refused : Declares state id kind ident (state.conflict ident)
  | known (binding : Binding) : kind = .var →
      state.arena.binding? (state.arena.closestHoist id) (ident.name?.getD "") = some binding →
      binding.kind.isBlockScoped = false → Declares state id kind ident state
  | entered :
      (∀ old, state.arena.binding? (state.arena.home kind id) (ident.name?.getD "") = some old →
        kind = .fun ∧ old.kind.yieldsToFunction = true) →
      Declares state id kind ident
        (state.bind (state.arena.home kind id) (ident.name?.getD "") kind ident)

/-- A `var` is refused exactly if it would pass a block scoped declaration of its name. -/
theorem blocked_iff {arena : Arena} {name : String} :
    ((upToHoist arena id).any fun scope =>
      (arena.get? scope).any (·.declaresBlockScoped name)) = true ↔
    ∃ scope ∈ upToHoist arena id, ∃ binding,
      arena.binding? scope name = some binding ∧ binding.kind.isBlockScoped = true := by
  simp only [List.any_eq_true, Option.any_eq_true, Scope.declaresBlockScoped, binding?,
    Option.bind_eq_some_iff]
  constructor
  · rintro ⟨scope, member, owner, found, binding, known, lexical⟩
    exact ⟨scope, member, binding, ⟨owner, found, known⟩, lexical⟩
  · rintro ⟨scope, member, binding, ⟨owner, found, known⟩, lexical⟩
    exact ⟨scope, member, owner, found, binding, known, lexical⟩

theorem closestHoist_mem_upToHoist (arena : Arena) (id : ScopeId) :
    arena.closestHoist id ∈ upToHoist arena id :=
  List.mem_append_right _ (List.mem_singleton_self _)

theorem declares_declare (state : Collected) (id : ScopeId) (kind : BindingKind) (ident : Node) :
    Declares state id kind ident (state.declare id kind ident) := by
  unfold Collected.declare
  dsimp only
  split
  · rename_i isVar
    subst isVar
    have home : state.arena.home .var id = state.arena.closestHoist id := if_pos rfl
    unfold declareVar
    dsimp only
    split
    · exact .refused
    · rename_i free
      split
      · rename_i declared
        obtain ⟨binding, found⟩ := declares_iff.mp declared
        refine .known binding rfl found ?_
        by_contra lexical
        exact free (blocked_iff.mpr ⟨_, closestHoist_mem_upToHoist _ _, binding, found,
          Bool.not_eq_false _ ▸ lexical⟩)
      · rename_i absent
        rw [← home] at absent ⊢
        refine .entered fun old found => ?_
        exact absurd (declares_iff.mpr ⟨old, found⟩) absent
  · rename_i notVar
    have home : state.arena.home kind id = id := if_neg notVar
    unfold declareHere
    split
    · rename_i absent
      rw [← home] at absent
      have entered : Declares state id kind ident _ := .entered fun old found => by
        rw [absent] at found
        cases found
      rwa [home] at entered
    · rename_i known found
      split
      · rename_i yields
        simp only [Bool.and_eq_true, decide_eq_true_eq] at yields
        obtain ⟨rfl, yields⟩ := yields
        rw [← home] at found
        have entered : Declares state id .fun ident _ := .entered fun old foundOld => by
          rw [found] at foundOld
          obtain rfl := Option.some.inj foundOld
          exact ⟨rfl, yields⟩
        rwa [home] at entered
      · exact .refused

/-- What a scope knows of a name after a declaration has not been refused. -/
def Recorded (kind : BindingKind) (ident : Node) (binding : Binding) : Prop :=
  match kind with
  | .var => binding.kind.isBlockScoped = false
  | .fun => binding.kind = .fun
  | .param => binding.kind = .param ∨ binding.kind = .fun
  | _ => binding = ⟨kind, ident⟩

theorem Recorded.kept {kind : BindingKind} {ident : Node} {binding kept : Binding}
    (recorded : Recorded kind ident binding)
    (change : kept = binding ∨ kept.kind = .fun ∧ binding.kind.yieldsToFunction = true) :
    Recorded kind ident kept := by
  rcases change with rfl | ⟨isFunction, yields⟩
  · exact recorded
  · cases kind with
    | var => simp [Recorded, isFunction, BindingKind.isBlockScoped]
    | «fun» => exact isFunction
    | param => exact .inr isFunction
    | _ =>
        rw [show binding = _ from recorded] at yields
        cases yields

theorem Recorded.isBlockScoped {kind : BindingKind} {ident : Node} {binding : Binding}
    (recorded : Recorded kind ident binding) (blockScoped : kind.isBlockScoped = true) :
    binding.kind.isBlockScoped = true := by
  cases kind with
  | «let» | «const» => rw [show binding = _ from recorded, blockScoped]
  | _ => cases blockScoped

namespace Declares

variable {state after : Collected} {id : ScopeId} {kind : BindingKind} {ident : Node}

section Ready

variable (sound : state.arena.Sound) (bound : id < state.arena.size)

include sound bound

theorem leads (step : Declares state id kind ident after) : Leads state after := by
  have target := sound.home_lt bound kind
  cases step with
  | refused =>
      exact ⟨.refl _, (Leads.refl state).bindings, List.prefix_append _ _, fun _ _ known => known⟩
  | known => exact .refl _
  | entered yields =>
      refine ⟨grows_declare _ _ _ _, ?_, List.prefix_refl _, fun _ _ known => known⟩
      intro other name binding known
      rw [bind, binding?_declare target]
      split
      · rename_i here
        rw [here.1, here.2] at known
        obtain ⟨rfl, yieldsToo⟩ := yields binding known
        exact ⟨_, rfl, .inr ⟨rfl, yieldsToo⟩⟩
      · exact ⟨binding, known, .inl rfl⟩

theorem recorded (step : Declares state id kind ident after)
    (accepted : after.conflicts = state.conflicts) :
    ∃ binding,
      after.arena.binding? (state.arena.home kind id) (ident.name?.getD "") = some binding ∧
      Recorded kind ident binding := by
  cases step with
  | refused => simp [conflict] at accepted
  | known binding isVar found free =>
      subst isVar
      exact ⟨binding, found, free⟩
  | entered =>
      refine ⟨⟨kind, ident⟩, ?_, ?_⟩
      · rw [bind, binding?_declare (sound.home_lt bound kind), if_pos ⟨rfl, rfl⟩]
      · cases kind with
        | param => exact .inl rfl
        | _ => rfl

theorem origin (step : Declares state id kind ident after) {other : ScopeId} {name : String}
    {binding : Binding} (known : after.arena.binding? other name = some binding) :
    state.arena.binding? other name = some binding ∨
      binding = ⟨kind, ident⟩ ∧ name = ident.name?.getD "" ∧ other = state.arena.home kind id := by
  cases step with
  | refused => exact .inl known
  | known => exact .inl known
  | entered =>
      rw [bind, binding?_declare (sound.home_lt bound kind)] at known
      split at known
      · rename_i here
        exact .inr ⟨(Option.some.inj known).symm, here.2, here.1⟩
      · exact .inl known

omit bound in
theorem arena_sound (step : Declares state id kind ident after) : after.arena.Sound := by
  cases step with
  | refused => exact sound
  | known => exact sound
  | entered => exact sound.declare _ _ _

end Ready

end Declares

/-- A `var` that would pass a block scoped declaration of its name is refused. -/
theorem conflicts_declare {state : Collected} {scope : ScopeId} {ident : Node} {binding : Binding}
    (member : scope ∈ upToHoist state.arena id)
    (found : state.arena.binding? scope (ident.name?.getD "") = some binding)
    (lexical : binding.kind.isBlockScoped = true) :
    (state.declare id .var ident).conflicts ≠ [] := by
  have blocked := blocked_iff.mpr ⟨scope, member, binding, found, lexical⟩
  simp [Collected.declare, declareVar, blocked, conflict]

/-! ## Runs of declarations -/

/-- A declaration, with what had been collected before it. -/
structure Entry where
  before : Collected
  id : ScopeId
  kind : BindingKind
  ident : Node

namespace Entry

def name (entry : Entry) : String := entry.ident.name?.getD ""

def after (entry : Entry) : Collected := entry.before.declare entry.id entry.kind entry.ident

/-- The scope that the declaration is meant for. -/
def home (entry : Entry) : ScopeId := entry.before.arena.home entry.kind entry.id

end Entry

def declareItems (state : Collected) (id : ScopeId) (items : List (BindingKind × Node)) :
    Collected :=
  items.foldl (fun state item => state.declare id item.1 item.2) state

theorem declareAll_eq (state : Collected) (id : ScopeId) (kind : BindingKind) (idents : List Node) :
    state.declareAll id kind idents = state.declareItems id (idents.map (kind, ·)) := by
  simp [declareAll, declareItems, List.foldl_map]

def entries (state : Collected) (id : ScopeId) : List (BindingKind × Node) → List Entry
  | [] => []
  | item :: rest => ⟨state, id, item.1, item.2⟩ :: entries (state.declare id item.1 item.2) id rest

/-- A visit of a node, with what had been collected before it and the scope around it. -/
structure Visit where
  before : Collected
  outer : ScopeId
  part : Outline

namespace Visit

def outside (visit : Visit) : List (BindingKind × Node) := namesAround visit.part

/-- The declarations that the node makes in the scope that it opens. -/
def inside (visit : Visit) : List (BindingKind × Node) :=
  match visit.part.label.node.form with
  | .function _ => (inSlot .parameter visit.part.children).map (.param, ·)
  | .catchClause => (inSlot .caught visit.part.children).map (.caught, ·)
  | _ => []

def opening? (visit : Visit) : Option ScopeKind := opening visit.part.label visit.part.children

def named (visit : Visit) : Collected := visit.before.declareItems visit.outer visit.outside

def inner (visit : Visit) : ScopeId :=
  if visit.opening?.isSome then visit.named.arena.size else visit.outer

def opened (visit : Visit) : Collected :=
  match visit.opening? with
  | none => visit.named
  | some kind => (visit.named.openScope kind visit.part.label visit.outer).1

def entered (visit : Visit) : Collected := visit.opened.declareItems visit.inner visit.inside

/-- What has been collected after the visit, the scope of the node included. -/
def after (visit : Visit) : Collected :=
  { visit.entered with scopeOf := visit.entered.scopeOf.push visit.inner }

def log (visit : Visit) : List Entry :=
  entries visit.before visit.outer visit.outside ++ entries visit.opened visit.inner visit.inside

end Visit

/-- The declarations and the visits made on the way from one state to another, in their order. -/
structure Walked (before : Collected) (log : List Entry) (visits : List Visit) (after : Collected) :
    Prop where
  leads : Leads before after
  sound : after.arena.Sound
  ready : ∀ entry ∈ log, entry.before.arena.Sound ∧ entry.id < entry.before.arena.size
  since : ∀ entry ∈ log, Leads before entry.before
  still : ∀ entry ∈ log, Leads entry.after after
  ordered : log.Pairwise fun first second => Leads first.after second.before
  visited : ∀ visit ∈ visits, visit.before.arena.Sound ∧
    visit.outer < visit.before.arena.size ∧ Leads visit.after after
  origin : ∀ id name binding, after.arena.binding? id name = some binding →
    before.arena.binding? id name = some binding ∨
      ∃ entry ∈ log, binding = ⟨entry.kind, entry.ident⟩ ∧ name = entry.name ∧ id = entry.home

namespace Walked

variable {first second third : Collected} {log more : List Entry} {visits others : List Visit}

theorem of_same (leads : Leads first second) (sound : second.arena.Sound)
    (same : ∀ id name, second.arena.binding? id name = first.arena.binding? id name)
    (visited : ∀ visit ∈ visits, visit.before.arena.Sound ∧
      visit.outer < visit.before.arena.size ∧ Leads visit.after second) :
    Walked first [] visits second where
  leads := leads
  sound := sound
  ready := by simp
  since := by simp
  still := by simp
  ordered := .nil
  visited := visited
  origin id name binding known := .inl (same id name ▸ known)

theorem append (former : Walked first log visits second)
    (latter : Walked second more others third) :
    Walked first (log ++ more) (visits ++ others) third where
  leads := former.leads.trans latter.leads
  sound := latter.sound
  ready := List.forall_mem_append.mpr ⟨former.ready, latter.ready⟩
  since entry member := by
    rcases List.mem_append.mp member with here | later
    · exact former.since entry here
    · exact former.leads.trans (latter.since entry later)
  still entry member := by
    rcases List.mem_append.mp member with here | later
    · exact (former.still entry here).trans latter.leads
    · exact latter.still entry later
  ordered := by
    apply List.pairwise_append.mpr
    refine ⟨former.ordered, latter.ordered, fun early earlyMember late lateMember => ?_⟩
    exact (former.still early earlyMember).trans (latter.since late lateMember)
  visited visit member := by
    rcases List.mem_append.mp member with here | later
    · obtain ⟨sound, bound, leads⟩ := former.visited visit here
      exact ⟨sound, bound, leads.trans latter.leads⟩
    · exact latter.visited visit later
  origin id name binding known := by
    rcases latter.origin id name binding known with earlier | ⟨entry, member, made⟩
    · rcases former.origin id name binding earlier with old | ⟨entry, member, made⟩
      · exact .inl old
      · exact .inr ⟨entry, List.mem_append_left _ member, made⟩
    · exact .inr ⟨entry, List.mem_append_right _ member, made⟩

theorem declare {state : Collected} {id : ScopeId} (sound : state.arena.Sound)
    (bound : id < state.arena.size) (kind : BindingKind) (ident : Node) :
    Walked state [⟨state, id, kind, ident⟩] [] (state.declare id kind ident) := by
  have step := declares_declare state id kind ident
  refine ⟨step.leads sound bound, step.arena_sound sound, ?_, ?_, ?_, List.pairwise_singleton _ _,
    by simp, ?_⟩
  · simpa using ⟨sound, bound⟩
  · simpa using Leads.refl state
  · intro entry member
    obtain rfl := List.mem_singleton.mp member
    exact .refl _
  · intro other name binding known
    rcases step.origin sound bound known with old | made
    · exact .inl old
    · exact .inr ⟨_, List.mem_singleton_self _, made⟩

end Walked

theorem walked_declareItems {items : List (BindingKind × Node)} :
    ∀ {state : Collected}, state.arena.Sound → id < state.arena.size →
      Walked state (entries state id items) [] (state.declareItems id items) := by
  induction items with
  | nil =>
      intro state sound _
      exact .of_same (.refl state) sound (fun _ _ => rfl) (by simp)
  | cons item items ih =>
      intro state sound bound
      have first := Walked.declare sound bound item.1 item.2
      exact first.append
        (ih first.sound (Nat.lt_of_lt_of_le bound first.leads.grows.size_le))

theorem mem_entries {items : List (BindingKind × Node)} :
    ∀ {state : Collected} {entry : Entry}, entry ∈ entries state id items →
      entry.id = id ∧ (entry.kind, entry.ident) ∈ items := by
  induction items with
  | nil => simp [entries]
  | cons item items ih =>
      intro state entry member
      rcases List.mem_cons.mp member with rfl | later
      · exact ⟨rfl, List.mem_cons_self⟩
      · obtain ⟨same, among⟩ := ih later
        exact ⟨same, List.mem_cons_of_mem _ among⟩

theorem exists_entry {item : BindingKind × Node} {items : List (BindingKind × Node)}
    (member : item ∈ items) : ∀ state : Collected, ∃ entry ∈ entries state id items,
      entry.id = id ∧ entry.kind = item.1 ∧ entry.ident = item.2 := by
  induction items with
  | nil => cases member
  | cons first items ih =>
      intro state
      rcases List.mem_cons.mp member with rfl | later
      · exact ⟨_, List.mem_cons_self, rfl, rfl, rfl⟩
      · obtain ⟨entry, among, known⟩ := ih later _
        exact ⟨entry, List.mem_cons_of_mem _ among, known⟩

theorem kept_push {scopeOf : Array ScopeId} {place : Nat} {found : ScopeId}
    (known : scopeOf[place]? = some found) : (scopeOf.push id)[place]? = some found := by
  have bound := (Array.getElem?_eq_some_iff.mp known).1
  rw [Array.getElem?_push, if_neg (Nat.ne_of_lt bound), known]

namespace Visit

theorem enter_eq (visit : Visit) :
    visit.before.enter visit.outer visit.part.label visit.part.children =
      (visit.entered, visit.inner) := by
  obtain ⟨state, outer, site, children⟩ := visit
  simp only [entered, opened, inner, inside, named, outside, namesAround, opening?, Tree.label,
    Tree.children]
  cases form : site.node.form with
  | function kind =>
      simp [enter, opening, form, declareAll_eq, openScope, Arena.add]
  | declaration kind =>
      simp [enter, opening, form, declareAll_eq, declareItems, List.foldl_map]
  | block =>
      by_cases body : site.node.slot = .functionBody <;>
        simp [enter, opening, form, body, openScope, declareItems, Arena.add]
  | loop kind =>
      by_cases header : (blockScopedHeader? (.node site children)).isSome = true <;>
        simp [enter, opening, form, header, openScope, declareItems, Arena.add]
  | catchClause =>
      simp [enter, opening, form, declareAll_eq, openScope, declareItems,
        Arena.add]
  | switch => simp [enter, opening, form, openScope, declareItems, Arena.add]
  | _ => simp [enter, opening, form, declareItems]

variable {visit : Visit}

theorem inner_of_closed (closed : visit.opening? = none) : visit.inner = visit.outer := by
  simp [inner, closed]

section Ready

variable (sound : visit.before.arena.Sound) (bound : visit.outer < visit.before.arena.size)

include sound bound

theorem walked_opened : Walked visit.before (entries visit.before visit.outer visit.outside) []
    visit.opened ∧ visit.inner < visit.opened.arena.size := by
  have named : Walked visit.before _ [] visit.named := walked_declareItems sound bound
  have boundToo := Nat.lt_of_lt_of_le bound named.leads.grows.size_le
  unfold opened inner
  cases visit.opening? with
  | none => exact ⟨named, boundToo⟩
  | some kind =>
      have added : Walked visit.named [] []
          (visit.named.openScope kind visit.part.label visit.outer).1 := by
        refine .of_same ⟨grows_add boundToo _ _, ?_, List.prefix_refl _, fun _ _ known => known⟩
          (named.sound.add boundToo _ _) (binding?_add boundToo _ _) (by simp)
        intro id name binding known
        exact ⟨binding, (binding?_add boundToo _ _ id name).trans known, .inl rfl⟩
      refine ⟨by simpa using named.append added, ?_⟩
      rw [Option.isSome_some, if_pos rfl]
      exact Nat.lt_of_lt_of_eq (Nat.lt_succ_self _) (size_add _ _).symm

theorem walked : Walked visit.before visit.log [visit] visit.after ∧
    visit.inner < visit.after.arena.size := by
  obtain ⟨opened, inside⟩ := walked_opened sound bound
  have entered : Walked visit.opened _ [] visit.entered := walked_declareItems opened.sound inside
  have noted : Walked visit.entered [] [visit] visit.after :=
    .of_same ⟨.refl _, (Leads.refl visit.entered).bindings, List.prefix_refl _,
      fun _ _ => kept_push⟩ entered.sound (fun _ _ => rfl) (by simpa using ⟨sound, bound, .refl _⟩)
  refine ⟨by simpa [log] using (opened.append entered).append noted, ?_⟩
  exact Nat.lt_of_lt_of_le inside entered.leads.grows.size_le

theorem get?_inner {kind : ScopeKind} (opens : visit.opening? = some kind) :
    ∃ scope, visit.after.arena.get? visit.inner = some scope ∧ scope.kind = kind ∧
      scope.owner = visit.part.label ∧ scope.parent = some visit.outer := by
  have named : Walked visit.before _ [] visit.named := walked_declareItems sound bound
  have boundToo := Nat.lt_of_lt_of_le bound named.leads.grows.size_le
  obtain ⟨opened, inside⟩ := walked_opened sound bound
  have entered : Walked visit.opened _ [] visit.entered := walked_declareItems opened.sound inside
  have fresh : visit.inner = visit.named.arena.size := by simp [inner, opens]
  have new : visit.opened.arena.get? visit.inner =
      some ⟨kind, visit.part.label, some visit.outer, [], []⟩ := by
    rw [fresh, Visit.opened, opens]
    exact get?_add_new boundToo kind visit.part.label
  exact entered.leads.grows _ _ new

end Ready

end Visit

mutual

/-- The visits of a walk over a tree. -/
def visits (state : Collected) (outer : ScopeId) : Outline → List Visit
  | .node site children =>
    let visit : Visit := ⟨state, outer, .node site children⟩
    visit :: visitsAll visit.after outer visit.inner children

def visitsAll (state : Collected) (outer id : ScopeId) : List Outline → List Visit
  | [] => []
  | child :: rest =>
    let scope := if child.label.node.slot = .functionName then outer else id
    visits state scope child ++ visitsAll (collect state scope child) outer id rest

end

theorem collect_eq (state : Collected) (outer : ScopeId) (site : Site) (children : List Outline) :
    collect state outer (.node site children) =
      collectAll (Visit.after ⟨state, outer, .node site children⟩) outer
        (Visit.inner ⟨state, outer, .node site children⟩) children := by
  have entered := Visit.enter_eq ⟨state, outer, .node site children⟩
  simp only [Tree.label, Tree.children] at entered
  rw [collect, entered]
  rfl

mutual

theorem walked_collect {state : Collected} {outer : ScopeId} : ∀ {tree : Outline},
    state.arena.Sound → outer < state.arena.size →
    Walked state ((visits state outer tree).flatMap Visit.log) (visits state outer tree)
      (state.collect outer tree)
  | .node site children, sound, bound => by
      obtain ⟨first, inside⟩ := @Visit.walked ⟨state, outer, .node site children⟩ sound bound
      rw [collect_eq, visits, List.flatMap_cons]
      refine first.append (walked_collectAll first.sound ?_ inside)
      exact Nat.lt_of_lt_of_le bound first.leads.grows.size_le

theorem walked_collectAll {state : Collected} : ∀ {trees : List Outline} {outer id : ScopeId},
    state.arena.Sound → outer < state.arena.size → id < state.arena.size →
    Walked state ((visitsAll state outer id trees).flatMap Visit.log)
      (visitsAll state outer id trees) (state.collectAll outer id trees)
  | [], _, _, sound, _, _ => .of_same (.refl state) sound (fun _ _ => rfl) (nofun)
  | child :: rest, outer, id, sound, outerBound, idBound => by
      have bound : (if child.label.node.slot = .functionName then outer else id) <
          state.arena.size := by
        split <;> assumption
      have first : Walked state _ (visits state _ child) _ := walked_collect sound bound
      have larger := first.leads.grows.size_le
      rw [visitsAll, collectAll, List.flatMap_append]
      exact first.append (walked_collectAll first.sound (Nat.lt_of_lt_of_le outerBound larger)
        (Nat.lt_of_lt_of_le idBound larger))

end


/-! ## Which visits there are -/

mutual

theorem parts_visits : ∀ (state : Collected) (outer : ScopeId) (tree : Outline),
    (visits state outer tree).map Visit.part = tree.subtrees
  | state, outer, .node site children => by
      rw [visits, List.map_cons, parts_visitsAll, Tree.subtrees]

theorem parts_visitsAll : ∀ (state : Collected) (outer id : ScopeId) (trees : List Outline),
    (visitsAll state outer id trees).map Visit.part = Tree.subtreesAll trees
  | _, _, _, [] => rfl
  | state, outer, id, child :: rest => by
      rw [visitsAll, List.map_append, parts_visits, parts_visitsAll, Tree.subtreesAll]

end

theorem head_mem_visits (state : Collected) (outer : ScopeId) (tree : Outline) :
    ⟨state, outer, tree⟩ ∈ visits state outer tree := by
  obtain ⟨site, children⟩ := tree
  exact List.mem_cons_self

theorem exists_visit_of_mem {outer : ScopeId} {child : Outline} {trees : List Outline}
    (among : child ∈ trees) : ∀ state : Collected, ∃ below ∈ visitsAll state outer id trees,
      below.part = child ∧
        below.outer = if child.label.node.slot = .functionName then outer else id := by
  induction trees with
  | nil => cases among
  | cons first rest ih =>
      intro state
      rcases List.mem_cons.mp among with rfl | later
      · exact ⟨_, List.mem_append_left _ (head_mem_visits _ _ _), rfl, rfl⟩
      · obtain ⟨below, member, known⟩ := ih later _
        exact ⟨below, List.mem_append_right _ member, known⟩

mutual

/-- What stands under a node is visited in the scope of the node, the name of a function in the
scope around the function. -/
theorem exists_visit_child {state : Collected} {outer : ScopeId} {visit : Visit} :
    ∀ {tree : Outline},
    visit ∈ visits state outer tree → ∀ child ∈ visit.part.children,
    ∃ below ∈ visits state outer tree, below.part = child ∧
      below.outer = if child.label.node.slot = .functionName then visit.outer else visit.inner
  | .node site children, member, child, among => by
      rcases List.mem_cons.mp member with rfl | later
      · obtain ⟨below, inside, known⟩ := exists_visit_of_mem among _
        exact ⟨below, List.mem_cons_of_mem _ inside, known⟩
      · obtain ⟨below, inside, known⟩ := exists_visitAll_child later child among
        exact ⟨below, List.mem_cons_of_mem _ inside, known⟩

theorem exists_visitAll_child {state : Collected} {outer id : ScopeId} {visit : Visit} :
    ∀ {trees : List Outline}, visit ∈ visitsAll state outer id trees →
    ∀ child ∈ visit.part.children,
    ∃ below ∈ visitsAll state outer id trees, below.part = child ∧
      below.outer = if child.label.node.slot = .functionName then visit.outer else visit.inner
  | first :: rest, member, child, among => by
      rcases List.mem_append.mp member with here | later
      · obtain ⟨below, inside, known⟩ := exists_visit_child here child among
        exact ⟨below, List.mem_append_left _ inside, known⟩
      · obtain ⟨below, inside, known⟩ := exists_visitAll_child later child among
        exact ⟨below, List.mem_append_right _ inside, known⟩

end

/-! ## Scopes and their nodes -/

theorem size_declareItems (id : ScopeId) (items : List (BindingKind × Node)) :
    ∀ state : Collected, (state.declareItems id items).arena.size = state.arena.size := by
  induction items with
  | nil => exact fun _ => rfl
  | cons item items ih =>
      intro state
      exact (ih _).trans (size_declare state id item.1 item.2)

theorem Visit.size_named (visit : Visit) : visit.named.arena.size = visit.before.arena.size :=
  size_declareItems _ _ _

theorem Visit.size_after (visit : Visit) : visit.after.arena.size =
    if visit.opening?.isSome then visit.before.arena.size + 1 else visit.before.arena.size := by
  rw [Visit.after, Visit.entered, size_declareItems, Visit.opened]
  cases visit.opening? with
  | none => exact visit.size_named
  | some kind => exact (size_add kind _).trans (congrArg (· + 1) visit.size_named)

mutual

/-- Every new scope was opened by a visit. -/
theorem exists_opening {state : Collected} {outer id : ScopeId} : ∀ {tree : Outline},
    state.arena.size ≤ id → id < (state.collect outer tree).arena.size →
    ∃ visit ∈ visits state outer tree, visit.opening?.isSome = true ∧ visit.inner = id
  | .node site children, fresh, bound => by
      let visit : Visit := ⟨state, outer, .node site children⟩
      have since : visit.before.arena.size ≤ id := fresh
      rw [collect_eq] at bound
      by_cases early : id < visit.after.arena.size
      · refine ⟨visit, List.mem_cons_self, ?_⟩
        rw [visit.size_after] at early
        split at early
        · rename_i opens
          refine ⟨opens, ?_⟩
          rw [Visit.inner, if_pos opens, visit.size_named]
          exact Nat.le_antisymm since (Nat.le_of_lt_succ early)
        · exact absurd early (Nat.not_lt.mpr since)
      · obtain ⟨below, inside, known⟩ := exists_openingAll (Nat.le_of_not_lt early) bound
        exact ⟨below, List.mem_cons_of_mem _ inside, known⟩

theorem exists_openingAll {state : Collected} {outer inner id : ScopeId} : ∀ {trees : List Outline},
    state.arena.size ≤ id → id < (state.collectAll outer inner trees).arena.size →
    ∃ visit ∈ visitsAll state outer inner trees, visit.opening?.isSome = true ∧ visit.inner = id
  | [], fresh, bound => absurd bound (Nat.not_lt.mpr fresh)
  | child :: rest, fresh, bound => by
      let scope := if child.label.node.slot = .functionName then outer else inner
      by_cases early : id < (state.collect scope child).arena.size
      · obtain ⟨visit, inside, known⟩ := exists_opening fresh early
        exact ⟨visit, List.mem_append_left _ inside, known⟩
      · obtain ⟨visit, inside, known⟩ := exists_openingAll (Nat.le_of_not_lt early) bound
        exact ⟨visit, List.mem_append_right _ inside, known⟩

end

theorem scopeOf_declareItems (id : ScopeId) (items : List (BindingKind × Node)) :
    ∀ state : Collected, (state.declareItems id items).scopeOf = state.scopeOf := by
  induction items with
  | nil => exact fun _ => rfl
  | cons item items ih =>
      intro state
      exact (ih _).trans (scopeOf_declare state id item.1 item.2)

theorem Visit.scopeOf_after (visit : Visit) :
    visit.after.scopeOf = visit.before.scopeOf.push visit.inner := by
  have opened : visit.opened.scopeOf = visit.before.scopeOf := by
    unfold Visit.opened
    split
    · exact scopeOf_declareItems _ _ _
    · exact scopeOf_declareItems _ _ _
  rw [Visit.after, Visit.entered, scopeOf_declareItems, opened]

mutual

theorem size_collect : ∀ (state : Collected) (outer : ScopeId) (tree : Outline),
    (state.collect outer tree).scopeOf.size = state.scopeOf.size + tree.size
  | state, outer, .node site children => by
      rw [collect_eq, size_collectAll, Visit.scopeOf_after, Array.size_push, Tree.size,
        Nat.add_assoc, Nat.add_comm 1]

theorem size_collectAll : ∀ (state : Collected) (outer id : ScopeId) (trees : List Outline),
    (state.collectAll outer id trees).scopeOf.size = state.scopeOf.size + Tree.sizeAll trees
  | _, _, _, [] => rfl
  | state, outer, id, child :: rest => by
      rw [collectAll, size_collectAll, size_collect, Tree.sizeAll, Nat.add_assoc]

end

mutual

/-- The visits of a numbered tree note the scopes of its nodes at their numbers. -/
theorem place_visits {above : List Node} {next : Nat} {state : Collected} {outer : ScopeId} :
    ∀ {tree : Tree Label}, state.scopeOf.size = next →
    ∀ visit ∈ visits state outer (number above next tree).1,
      visit.before.scopeOf.size = visit.part.label.node.id
  | .node label children, place, visit, member => by
      rcases List.mem_cons.mp member with rfl | later
      · exact place
      · refine place_visitsAll ?_ visit later
        rw [Visit.scopeOf_after, Array.size_push, place]

theorem place_visitsAll {above : List Node} {next : Nat} {state : Collected} {outer id : ScopeId} :
    ∀ {trees : List (Tree Label)}, state.scopeOf.size = next →
    ∀ visit ∈ visitsAll state outer id (numberAll above next trees).1,
      visit.before.scopeOf.size = visit.part.label.node.id
  | tree :: rest, place, visit, member => by
      rcases List.mem_append.mp member with here | later
      · exact place_visits place visit here
      · refine place_visitsAll ?_ visit later
        rw [size_collect, place, free_number, size_number]

end

/-! ## The walk over a program -/

section Program

variable {program : Program} {visit : Visit}

/-- The visits of the walk over a program. -/
def tour (program : Program) : List Visit :=
  visitsAll (start (ofProgram program).label) 0 0 (ofProgram program).children

theorem walked_tour (program : Program) :
    Walked (start (ofProgram program).label) ((tour program).flatMap Visit.log) (tour program)
      (Resolution.collect (ofProgram program)) :=
  walked_collectAll (sound_start _) Nat.zero_lt_one Nat.zero_lt_one

theorem exists_visit {part : Outline}
    (below : part ∈ Tree.subtreesAll (ofProgram program).children) :
    ∃ visit ∈ tour program, visit.part = part := by
  rw [← parts_visitsAll] at below
  exact List.mem_map.mp below

theorem part_mem_subtrees (member : visit ∈ tour program) :
    visit.part ∈ (ofProgram program).subtrees := by
  have among : visit.part ∈ (tour program).map Visit.part := List.mem_map_of_mem member
  rw [tour, parts_visitsAll] at among
  obtain ⟨child, childMember, below⟩ := Tree.mem_subtreesAll.mp among
  exact Tree.mem_subtrees.mpr (.inr ⟨child, childMember, below⟩)

theorem scopeOf_visit (member : visit ∈ tour program) :
    (Resolution.collect (ofProgram program)).scopeOf[visit.part.label.node.id]? =
      some visit.inner := by
  obtain ⟨-, -, leads⟩ := (walked_tour program).visited visit member
  have place : visit.before.scopeOf.size = visit.part.label.node.id :=
    place_visitsAll rfl visit member
  apply leads.scopeOf
  rw [Visit.scopeOf_after, ← place, Array.getElem?_push_size]

theorem pairwise_tour (program : Program) : (tour program).Pairwise fun first second =>
    first.part.label.node.id < second.part.label.node.id := by
  have ids := ids_ofProgram program
  rw [sites, Tree.preorder_eq_map, List.map_map] at ids
  have sorted : ((ofProgram program).subtrees.map (·.label.node.id)).Pairwise (· < ·) :=
    ids ▸ List.pairwise_lt_range
  have below : ((tour program).map Visit.part).Pairwise fun first second =>
      first.label.node.id < second.label.node.id := by
    rw [tour, parts_visitsAll]
    exact (List.pairwise_cons.mp (List.pairwise_map.mp sorted)).2
  rwa [List.pairwise_map] at below

/-- Visits enter their names in the order of the nodes. -/
theorem leads_of_id_lt {later : Visit} (member : visit ∈ tour program)
    (laterMember : later ∈ tour program)
    (less : visit.part.label.node.id < later.part.label.node.id) :
    ∀ first ∈ visit.log, ∀ second ∈ later.log, Leads first.after second.before := by
  have sorted := pairwise_tour program
  have ordered := (List.pairwise_flatMap.mp (walked_tour program).ordered).2
  obtain ⟨before, after, split⟩ := List.append_of_mem member
  rw [split] at laterMember sorted ordered
  rcases List.mem_append.mp laterMember with inBefore | rest
  · have more := (List.pairwise_append.mp sorted).2.2 later inBefore visit List.mem_cons_self
    exact absurd less (Nat.lt_asymm more)
  · rcases List.mem_cons.mp rest with rfl | inAfter
    · exact absurd less (Nat.lt_irrefl _)
    · exact (List.pairwise_cons.mp (List.pairwise_append.mp ordered).2.1).1 later inAfter

end Program

end Resolution.Collected

end LoopCapture
