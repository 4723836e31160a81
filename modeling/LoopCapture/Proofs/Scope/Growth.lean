import LoopCapture.Proofs.EntryLaws
import LoopCapture.Proofs.Scope.Ways
import LoopCapture.Scope.Resolution

/-!
# Arenas while scopes are collected

Scopes are only added while a program is followed, and a scope keeps its kind, its owner and the
scope around it. A scope gets names only from the declarations that are meant for it: names of `var`
go to scopes that hoist, all others to the scope where they stand, and a block scoped name is never
replaced.
-/

set_option autoImplicit false

namespace LoopCapture

namespace Arena

variable {id : ScopeId} {arena : Arena}

/-! ## Sound arenas -/

/-- Every scope has noted the scopes directly inside it, and no others, each once. -/
structure Linked (arena : Arena) : Prop where
  agree : ∀ id child, child ∈ arena.childrenOf id ↔ arena.parentOf child = some id
  once : ∀ id, (arena.childrenOf id).Nodup

theorem Linked.parent_lt (linked : arena.Linked) {outer : ScopeId}
    (parent : arena.parentOf id = some outer) : outer < arena.size := by
  by_contra beyond
  have inside := (linked.agree outer id).mpr parent
  rw [childrenOf, get?_of_not_lt beyond] at inside
  cases inside

/-- Scopes lie inside earlier ones, only the first one is outermost, which hoists, and scopes agree
about which of them lies directly inside another. -/
structure Sound (arena : Arena) : Prop where
  upward : ∀ id outer, arena.parentOf id = some outer → outer < id
  outermost : ∀ id scope, arena.get? id = some scope → scope.parent = none → id = 0
  hoisting : ∀ id scope, arena.get? id = some scope → scope.parent = none → scope.kind = .hoist
  linked : arena.Linked

/-- From every scope of a sound arena a way leads up. -/
theorem Sound.way (sound : arena.Sound) (id : ScopeId) (bound : id < arena.size) :
    ∃ ids, Way arena (some id) ids := by
  induction id using Nat.strongRecOn with
  | ind id ih =>
      obtain ⟨scope, found⟩ := get?_of_lt bound
      cases parent : scope.parent with
      | none => exact ⟨[id], .step found (parent ▸ .outside)⟩
      | some outer =>
          have smaller : outer < id := sound.upward id outer ((parentOf_of_get? found).trans parent)
          obtain ⟨ids, way⟩ := ih outer smaller (Nat.lt_trans smaller bound)
          exact ⟨id :: ids, .step found (parent ▸ way)⟩

theorem Sound.exists_hoist (sound : arena.Sound) {start : Option ScopeId} {ids : List ScopeId}
    (way : Way arena start ids) (somewhere : start ≠ none) :
    ∃ target ∈ ids, arena.hoists target = true := by
  induction way with
  | outside => exact absurd rfl somewhere
  | @step id scope ids found rest ih =>
      by_cases outermost : scope.parent = none
      · refine ⟨id, List.mem_cons_self, ?_⟩
        simp [hoists, found, sound.hoisting id scope found outermost]
      · obtain ⟨target, member, hoist⟩ := ih outermost
        exact ⟨target, List.mem_cons_of_mem _ member, hoist⟩

/-- The nearest scope that hoists does hoist. -/
theorem Sound.hoists_closestHoist (sound : arena.Sound) (bound : id < arena.size) :
    arena.hoists (arena.closestHoist id) = true := by
  obtain ⟨ids, way⟩ := sound.way id bound
  obtain ⟨target, member, hoist⟩ := sound.exists_hoist way (by nofun)
  rw [closestHoist, way.ancestors_eq]
  cases found : ids.find? arena.hoists with
  | none => exact absurd hoist (List.find?_eq_none.mp found target member)
  | some nearest => exact List.find?_some found

/-! ## Names of a scope -/

theorem binding?_of_get? {scope : Scope} (found : arena.get? id = some scope) (name : String) :
    arena.binding? id name = scope.bindings.get? name := by
  simp [binding?, found]

theorem declares_iff {name : String} :
    arena.declares id name = true ↔ ∃ binding, arena.binding? id name = some binding := by
  unfold declares binding?
  cases arena.get? id with
  | none => simp
  | some scope => simp [Scope.declares, Entries.has_iff]

theorem binding?_declare (bound : id < arena.size) (name : String) (binding : Binding)
    (other : ScopeId) (wanted : String) :
    (arena.declare id name binding).binding? other wanted =
      if other = id ∧ wanted = name then some binding else arena.binding? other wanted := by
  unfold binding? declare
  rw [get?_modify]
  by_cases here : other = id
  · subst here
    obtain ⟨scope, found⟩ := get?_of_lt bound
    simp [found, Entries.get?_put]
  · simp [here]

/-! ## Growth -/

/-- Scopes keep their kind, their owner and the scope around them. -/
def Grows (before after : Arena) : Prop :=
  ∀ id scope, before.get? id = some scope →
    ∃ grown, after.get? id = some grown ∧
      grown.kind = scope.kind ∧ grown.owner = scope.owner ∧ grown.parent = scope.parent

namespace Grows

variable {first second third : Arena}

theorem refl (arena : Arena) : Grows arena arena :=
  fun _ scope found => ⟨scope, found, rfl, rfl, rfl⟩

theorem trans (former : Grows first second) (latter : Grows second third) : Grows first third := by
  intro id scope found
  obtain ⟨middle, foundMiddle, kind, owner, parent⟩ := former id scope found
  obtain ⟨grown, foundGrown, kindToo, ownerToo, parentToo⟩ := latter id middle foundMiddle
  exact ⟨grown, foundGrown, kindToo.trans kind, ownerToo.trans owner, parentToo.trans parent⟩

theorem way (grows : Grows first second) {start : Option ScopeId} {ids : List ScopeId}
    (way : Way first start ids) : Way second start ids :=
  way.mono fun id scope found =>
    let ⟨grown, foundGrown, _, _, parent⟩ := grows id scope found
    ⟨grown, foundGrown, parent⟩

theorem size_le (grows : Grows first second) : first.size ≤ second.size := by
  by_contra larger
  have bound : second.size < first.size := Nat.lt_of_not_le larger
  obtain ⟨scope, found⟩ := get?_of_lt bound
  obtain ⟨grown, foundGrown, -⟩ := grows _ scope found
  exact Nat.lt_irrefl _ (get?_lt foundGrown)

theorem hoists_eq (grows : Grows first second) {id : ScopeId} (bound : id < first.size) :
    second.hoists id = first.hoists id := by
  obtain ⟨scope, found⟩ := get?_of_lt bound
  obtain ⟨grown, foundGrown, kind, -⟩ := grows id scope found
  simp [hoists, found, foundGrown, kind]

end Grows

theorem grows_declare (arena : Arena) (id : ScopeId) (name : String) (binding : Binding) :
    Grows arena (arena.declare id name binding) := by
  intro other scope found
  rw [declare, get?_modify]
  split
  · rw [found]
    exact ⟨_, rfl, rfl, rfl, rfl⟩
  · exact ⟨scope, found, rfl, rfl, rfl⟩

theorem size_declare (arena : Arena) (id : ScopeId) (name : String) (binding : Binding) :
    (arena.declare id name binding).size = arena.size :=
  size_modify _ _ _

section Modify

variable (arena : Arena) (id : ScopeId) {change : Scope → Scope} (other : ScopeId)

theorem parentOf_modify (same : ∀ scope, (change scope).parent = scope.parent) :
    (arena.modify id change).parentOf other = arena.parentOf other := by
  unfold parentOf
  rw [get?_modify]
  split
  · cases arena.get? other <;> simp [same]
  · rfl

theorem childrenOf_modify (same : ∀ scope, (change scope).children = scope.children) :
    (arena.modify id change).childrenOf other = arena.childrenOf other := by
  unfold childrenOf
  rw [get?_modify]
  split
  · cases arena.get? other <;> simp [same]
  · rfl

end Modify

theorem Linked.modify (linked : arena.Linked) (id : ScopeId) {change : Scope → Scope}
    (parent : ∀ scope, (change scope).parent = scope.parent)
    (children : ∀ scope, (change scope).children = scope.children) :
    (arena.modify id change).Linked where
  agree other child := by
    rw [childrenOf_modify arena id other children, parentOf_modify arena id child parent]
    exact linked.agree other child
  once other := by
    rw [childrenOf_modify arena id other children]
    exact linked.once other

theorem Sound.declare (sound : arena.Sound) (id : ScopeId) (name : String) (binding : Binding) :
    (arena.declare id name binding).Sound where
  upward other outer parent := by
    have same : (arena.declare id name binding).parentOf other = arena.parentOf other :=
      parentOf_modify arena id other fun _ => rfl
    exact sound.upward other outer (same ▸ parent)
  outermost other scope found none := by
    have same : (arena.declare id name binding).parentOf other = arena.parentOf other :=
      parentOf_modify arena id other fun _ => rfl
    obtain ⟨old, foundOld⟩ := get?_of_lt ((size_declare arena id name binding) ▸ get?_lt found)
    rw [parentOf_of_get? found, parentOf_of_get? foundOld, none] at same
    exact sound.outermost other old foundOld same.symm
  hoisting other scope found outermost := by
    obtain ⟨old, foundOld⟩ := get?_of_lt ((size_declare arena id name binding) ▸ get?_lt found)
    obtain ⟨grown, foundGrown, kind, -, parent⟩ :=
      grows_declare arena id name binding other old foundOld
    rw [found] at foundGrown
    obtain rfl := Option.some.inj foundGrown
    rw [kind]
    exact sound.hoisting other old foundOld (parent ▸ outermost)
  linked := sound.linked.modify id (fun _ => rfl) fun _ => rfl

/-! ## New scopes -/

section Add

variable {arena : Arena} {outer : ScopeId} (bound : outer < arena.size) (kind : ScopeKind)
  (owner : Site)

include bound

theorem get?_add (id : ScopeId) : (arena.add kind owner (some outer)).1.get? id =
    if id = arena.size then some ⟨kind, owner, some outer, [], []⟩
    else (arena.get? id).map fun scope =>
      if id = outer then { scope with children := scope.children ++ [arena.size] } else scope := by
  unfold add
  dsimp only
  rw [get?_modify]
  have pushed : (⟨arena.scopes.push ⟨kind, owner, some outer, [], []⟩⟩ : Arena).get? id =
      if id = arena.size then some ⟨kind, owner, some outer, [], []⟩ else arena.get? id := by
    unfold get? size
    rw [Array.getElem?_push]
  rw [pushed]
  by_cases fresh : id = arena.size
  · have different : id ≠ outer := fun same => Nat.ne_of_lt bound (same.symm.trans fresh)
    rw [if_neg different, if_pos fresh, if_pos fresh]
  · rw [if_neg fresh, if_neg fresh]
    split
    · rfl
    · simp

omit bound in
theorem size_add : (arena.add kind owner (some outer)).1.size = arena.size + 1 := by
  simp [add, size, Arena.modify]

theorem grows_add : Grows arena (arena.add kind owner (some outer)).1 := by
  intro id scope found
  rw [get?_add bound, if_neg (Nat.ne_of_lt (get?_lt found)), found]
  refine ⟨_, rfl, ?_⟩
  dsimp only
  split <;> exact ⟨rfl, rfl, rfl⟩

theorem get?_add_new : (arena.add kind owner (some outer)).1.get? arena.size =
    some ⟨kind, owner, some outer, [], []⟩ := by
  rw [get?_add bound, if_pos rfl]

theorem binding?_add (id : ScopeId) (name : String) :
    (arena.add kind owner (some outer)).1.binding? id name = arena.binding? id name := by
  unfold binding?
  rw [get?_add bound]
  by_cases fresh : id = arena.size
  · rw [if_pos fresh, get?_of_not_lt (fresh ▸ Nat.lt_irrefl _)]
    rfl
  · rw [if_neg fresh]
    cases arena.get? id with
    | none => rfl
    | some scope =>
        simp only [Option.map_some, Option.bind_some]
        split <;> rfl

theorem parentOf_add (id : ScopeId) : (arena.add kind owner (some outer)).1.parentOf id =
    if id = arena.size then some outer else arena.parentOf id := by
  unfold parentOf
  rw [get?_add bound]
  split
  · rfl
  · cases arena.get? id with
    | none => rfl
    | some scope =>
        simp only [Option.map_some, Option.bind_some]
        split <;> rfl

theorem childrenOf_add (id : ScopeId) : (arena.add kind owner (some outer)).1.childrenOf id =
    if id = outer then arena.childrenOf id ++ [arena.size]
    else if id = arena.size then [] else arena.childrenOf id := by
  unfold childrenOf
  rw [get?_add bound]
  by_cases here : id = outer
  · obtain ⟨scope, found⟩ := get?_of_lt bound
    rw [if_neg (fun fresh => Nat.ne_of_lt bound (here ▸ fresh)), if_pos here, here, found]
    simp
  · rw [if_neg here]
    split
    · rfl
    · cases arena.get? id with
      | none => rfl
      | some scope => simp

theorem Linked.add (linked : arena.Linked) : (arena.add kind owner (some outer)).1.Linked := by
  have fresh {id : ScopeId} : arena.parentOf arena.size ≠ some id := by
    intro parent
    obtain ⟨scope, found, -⟩ := Option.bind_eq_some_iff.mp parent
    exact Nat.lt_irrefl _ (get?_lt found)
  have new {id : ScopeId} : arena.size ∉ arena.childrenOf id := fun inside =>
    fresh ((linked.agree id arena.size).mp inside)
  have none : arena.childrenOf arena.size = [] := by
    rw [childrenOf, get?_of_not_lt (Nat.lt_irrefl _)]
    rfl
  constructor
  · intro id child
    rw [childrenOf_add bound, parentOf_add bound]
    by_cases isNew : child = arena.size
    · subst isNew
      by_cases here : id = outer
      · simp [here]
      · by_cases same : id = arena.size
        · simp [same, Nat.ne_of_lt bound, Ne.symm (Nat.ne_of_lt bound)]
        · simp [here, same, new, Ne.symm here]
    · by_cases here : id = outer
      · simp [here, isNew, linked.agree]
      · by_cases same : id = arena.size
        · have empty := linked.agree arena.size child
          rw [none] at empty
          simpa [here, same, isNew, Ne.symm (Nat.ne_of_lt bound)] using empty
        · simp [here, same, isNew, linked.agree]
  · intro id
    rw [childrenOf_add bound]
    split
    · refine List.nodup_append.mpr ⟨linked.once id, List.nodup_singleton _, ?_⟩
      rintro child inside _ singleton rfl
      exact new (List.mem_singleton.mp singleton ▸ inside)
    · split
      · exact List.nodup_nil
      · exact linked.once id

theorem Sound.add (sound : arena.Sound) : (arena.add kind owner (some outer)).1.Sound where
  upward id around parent := by
    rw [parentOf_add bound] at parent
    split at parent
    · rename_i fresh
      obtain rfl := Option.some.inj parent
      exact fresh ▸ bound
    · exact sound.upward id around parent
  outermost id scope found none := by
    have parent := parentOf_of_get? found
    rw [parentOf_add bound, none] at parent
    split at parent
    · cases parent
    · rename_i old
      have within := get?_lt found
      rw [size_add kind owner] at within
      have inside : id < arena.size := Nat.lt_of_le_of_ne (Nat.le_of_lt_succ within) old
      obtain ⟨former, foundFormer⟩ := get?_of_lt inside
      exact sound.outermost id former foundFormer (parentOf_of_get? foundFormer ▸ parent)
  hoisting id scope found outermost := by
    rw [get?_add bound] at found
    split at found
    · obtain rfl := Option.some.inj found
      cases outermost
    · obtain ⟨old, foundOld, rfl⟩ := Option.map_eq_some_iff.mp found
      split at outermost
      · rw [if_pos (by assumption)]
        exact sound.hoisting id old foundOld outermost
      · rw [if_neg (by assumption)]
        exact sound.hoisting id old foundOld outermost
  linked := sound.linked.add bound kind owner

end Add

end Arena

namespace Resolution.Collected

theorem scopeOf_declare (state : Collected) (outer : ScopeId) (kind : BindingKind) (ident : Node) :
    (state.declare outer kind ident).scopeOf = state.scopeOf := by
  unfold Collected.declare declareVar declareHere
  dsimp only
  repeat' split
  all_goals rfl

theorem size_declare (state : Collected) (outer : ScopeId) (kind : BindingKind) (ident : Node) :
    (state.declare outer kind ident).arena.size = state.arena.size := by
  unfold Collected.declare declareVar declareHere
  dsimp only
  repeat' split
  all_goals first | rfl | exact Arena.size_declare _ _ _ _

end Resolution.Collected

end LoopCapture
