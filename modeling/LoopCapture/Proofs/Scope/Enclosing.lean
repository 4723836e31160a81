import LoopCapture.Proofs.Scope.Growth

/-!
# A scope put around other scopes

Wrapping a body without braces puts a scope between the scopes of the body and the scope around the
loop. Ways that pass it get longer by one scope, and nothing else changes.
-/

set_option autoImplicit false

namespace LoopCapture.Arena

variable {arena : Arena}

/-! ## Detours -/

/-- The way after some scopes have moved into a new one. -/
def detour (moved : List ScopeId) (fresh : ScopeId) : List ScopeId → List ScopeId
  | [] => []
  | id :: ids => if id ∈ moved then id :: fresh :: detour moved fresh ids
    else id :: detour moved fresh ids

theorem subset_detour (moved : List ScopeId) (fresh : ScopeId) (ids : List ScopeId) :
    ids ⊆ detour moved fresh ids := by
  induction ids with
  | nil => exact List.Subset.refl _
  | cons id ids ih =>
      rw [detour]
      split
      · exact List.cons_subset_cons _ (List.subset_cons_of_subset _ ih)
      · exact List.cons_subset_cons _ ih

/-! ## Moves -/

/-- Some scopes have moved into another one, and nothing else about the scopes has changed. -/
structure Reparented (target : ScopeId) (moved : List ScopeId) (before after : Arena) : Prop where
  size : after.size = before.size
  kept : ∀ id scope, before.get? id = some scope → ∃ changed, after.get? id = some changed ∧
    changed.kind = scope.kind ∧ changed.owner = scope.owner ∧ changed.bindings = scope.bindings ∧
      changed.parent = if id ∈ moved then some target else scope.parent
  linked : after.Linked

theorem childrenOf_detach (arena : Arena) (id other : ScopeId) :
    (arena.detach id).childrenOf other =
      if arena.parentOf id = some other then (arena.childrenOf other).erase id
      else arena.childrenOf other := by
  unfold detach parentOf
  cases (arena.get? id).bind Scope.parent with
  | none => simp
  | some outer =>
      unfold childrenOf
      rw [get?_modify]
      by_cases here : other = outer
      · subst here
        cases arena.get? other <;> simp
      · simp [here, Ne.symm here]

theorem get?_detach (id : ScopeId) {other : ScopeId} {scope : Scope}
    (found : arena.get? other = some scope) :
    ∃ children, (arena.detach id).get? other = some { scope with children := children } := by
  unfold detach
  split
  · exact ⟨scope.children, found⟩
  · rw [get?_modify, found]
    split
    · exact ⟨_, rfl⟩
    · exact ⟨scope.children, rfl⟩

theorem size_detach (arena : Arena) (id : ScopeId) : (arena.detach id).size = arena.size := by
  unfold detach
  split
  · rfl
  · exact size_modify _ _ _

theorem size_reparent (arena : Arena) (id target : ScopeId) :
    (arena.reparent id target).size = arena.size := by
  unfold reparent
  dsimp only
  rw [size_modify, size_modify, size_detach]

theorem get?_reparent (id target : ScopeId) {other : ScopeId} {scope : Scope}
    (found : arena.get? other = some scope) :
    ∃ changed, (arena.reparent id target).get? other = some changed ∧
      changed.kind = scope.kind ∧ changed.owner = scope.owner ∧ changed.bindings = scope.bindings ∧
        changed.parent = if other = id then some target else scope.parent := by
  obtain ⟨children, detached⟩ := get?_detach id found
  unfold reparent
  dsimp only
  rw [get?_modify, get?_modify, detached]
  by_cases here : other = id
  · rw [if_pos here, if_pos here]
    split <;> exact ⟨_, rfl, rfl, rfl, rfl, rfl⟩
  · rw [if_neg here, if_neg here]
    split <;> exact ⟨_, rfl, rfl, rfl, rfl, rfl⟩

theorem childrenOf_reparent {id target : ScopeId} (bound : target < arena.size) (other : ScopeId) :
    (arena.reparent id target).childrenOf other =
      (if arena.parentOf id = some other then (arena.childrenOf other).erase id
        else arena.childrenOf other) ++ if other = target then [id] else [] := by
  have detached := childrenOf_detach arena id other
  have same : ((arena.detach id).modify id fun scope =>
      { scope with parent := some target }).childrenOf other = (arena.detach id).childrenOf other :=
    childrenOf_modify _ _ _ fun _ => rfl
  rw [← detached, ← same]
  unfold reparent
  dsimp only
  by_cases here : other = target
  · subst here
    rw [if_pos rfl]
    have inside : other < ((arena.detach id).modify id fun scope =>
        { scope with parent := some other }).size := by
      rwa [size_modify, size_detach]
    obtain ⟨scope, found⟩ := get?_of_lt inside
    unfold childrenOf
    rw [get?_modify, if_pos rfl, found]
    rfl
  · rw [if_neg here, List.append_nil]
    unfold childrenOf
    rw [get?_modify, if_neg here]

theorem parentOf_reparent {id : ScopeId} (target : ScopeId) (bound : id < arena.size)
    (other : ScopeId) : (arena.reparent id target).parentOf other =
      if other = id then some target else arena.parentOf other := by
  by_cases inside : other < arena.size
  · obtain ⟨scope, found⟩ := get?_of_lt inside
    obtain ⟨changed, foundChanged, -, -, -, parent⟩ := get?_reparent id target found
    rw [parentOf_of_get? foundChanged, parentOf_of_get? found, parent]
  · have different : other ≠ id := fun same => inside (same ▸ bound)
    rw [if_neg different, parentOf_of_not_lt inside, parentOf_of_not_lt (by rwa [size_reparent])]

theorem Linked.reparent (linked : arena.Linked) {id target : ScopeId} (bound : id < arena.size)
    (targetBound : target < arena.size) :
    (arena.reparent id target).Linked := by
  -- The scope is gone from the children of its old parent, and was nobody else's child.
  have rest (other child : ScopeId) : child ∈ (if arena.parentOf id = some other
      then (arena.childrenOf other).erase id else arena.childrenOf other) ↔
        child ≠ id ∧ arena.parentOf child = some other := by
    split
    · rw [(linked.once other).mem_erase_iff, linked.agree]
    · rename_i stranger
      rw [linked.agree]
      constructor
      · intro parent
        exact ⟨fun same => stranger (same ▸ parent), parent⟩
      · exact And.right
  constructor
  · intro other child
    rw [childrenOf_reparent targetBound, parentOf_reparent target bound, List.mem_append, rest]
    by_cases same : child = id
    · subst same
      by_cases here : other = target
      · simp [here]
      · simp [here, Ne.symm here]
    · by_cases here : other = target <;> simp [here, same]
  · intro other
    rw [childrenOf_reparent targetBound]
    have once : (if arena.parentOf id = some other then (arena.childrenOf other).erase id
        else arena.childrenOf other).Nodup := by
      split
      · exact (linked.once other).erase id
      · exact linked.once other
    by_cases here : other = target
    · rw [if_pos here]
      refine List.nodup_append.mpr ⟨once, List.nodup_singleton id, ?_⟩
      rintro child old _ singleton rfl
      exact ((rest other child).mp old).1 (List.mem_singleton.mp singleton)
    · rwa [if_neg here, List.append_nil]

theorem reparented_foldl {target : ScopeId} {moved : List ScopeId} (linked : arena.Linked)
    (bound : target < arena.size) (bounds : ∀ id ∈ moved, id < arena.size) :
    Reparented target moved arena
      (moved.foldl (fun arena child => arena.reparent child target) arena) := by
  induction moved generalizing arena with
  | nil => exact ⟨rfl, fun _ scope found => ⟨scope, found, rfl, rfl, rfl, rfl⟩, linked⟩
  | cons id moved ih =>
      have size := size_reparent arena id target
      have linkedToo := linked.reparent (bounds id List.mem_cons_self) bound
      have rest := ih linkedToo (size ▸ bound)
        fun other member => size ▸ bounds other (List.mem_cons_of_mem _ member)
      refine ⟨rest.size.trans size, fun other scope found => ?_, rest.linked⟩
      obtain ⟨middle, foundMiddle, kind, owner, bindings, parent⟩ := get?_reparent id target found
      obtain ⟨changed, foundChanged, kindToo, ownerToo, bindingsToo, parentToo⟩ :=
        rest.kept other middle foundMiddle
      refine ⟨changed, foundChanged, kindToo.trans kind, ownerToo.trans owner,
        bindingsToo.trans bindings, ?_⟩
      rw [parentToo, parent]
      by_cases here : other = id <;> by_cases later : other ∈ moved <;> simp [here, later]

/-! ## A new scope in between -/

/-- A new scope has come into a scope, and some scopes have moved from there into the new one. -/
structure Enclosed (prior : ScopeId) (moved : List ScopeId) (owner : Site) (before after : Arena) :
    Prop where
  size : after.size = before.size + 1
  kept : ∀ id scope, before.get? id = some scope → ∃ changed, after.get? id = some changed ∧
    changed.kind = scope.kind ∧ changed.owner = scope.owner ∧ changed.bindings = scope.bindings ∧
      changed.parent = if id ∈ moved then some before.size else scope.parent
  new : ∃ children, after.get? before.size = some ⟨.hoist, owner, some prior, children, []⟩
  linked : after.Linked
  inside : ∀ id ∈ moved, before.parentOf id = some prior

theorem enclosed_foldl {prior : ScopeId} {moved : List ScopeId} (owner : Site)
    (linked : arena.Linked) (bound : prior < arena.size) (among : moved ⊆ arena.childrenOf prior) :
    Enclosed prior moved owner arena (moved.foldl
      (fun grown child => grown.reparent child arena.size)
      (arena.add .hoist owner (some prior)).1) := by
  have inside (id : ScopeId) (member : id ∈ moved) : arena.parentOf id = some prior :=
    (linked.agree prior id).mp (among member)
  have old (id : ScopeId) (member : id ∈ moved) : id < arena.size := by
    obtain ⟨scope, found, -⟩ := Option.bind_eq_some_iff.mp (inside id member)
    exact get?_lt found
  have size : (arena.add .hoist owner (some prior)).1.size = arena.size + 1 := size_add .hoist owner
  have moves : Reparented arena.size moved (arena.add .hoist owner (some prior)).1 _ :=
    reparented_foldl (linked.add bound .hoist owner) (size ▸ Nat.lt_succ_self _)
      fun id member => size ▸ Nat.lt_succ_of_lt (old id member)
  refine ⟨moves.size.trans size, fun id scope found => ?_, ?_, moves.linked, inside⟩
  · obtain ⟨children, added⟩ : ∃ children, (arena.add .hoist owner (some prior)).1.get? id =
        some { scope with children := children } := by
      rw [get?_add bound, if_neg (Nat.ne_of_lt (get?_lt found)), found, Option.map_some]
      split
      · exact ⟨_, rfl⟩
      · exact ⟨scope.children, rfl⟩
    have kept := moves.kept id _ added
    exact kept
  · obtain ⟨changed, foundChanged, kind, ownerToo, bindings, parent⟩ :=
      moves.kept arena.size _ (get?_add_new bound .hoist owner)
    rw [if_neg fun member => Nat.lt_irrefl _ (old arena.size member)] at parent
    refine ⟨changed.children, foundChanged.trans ?_⟩
    obtain ⟨_, _, _, _, _⟩ := changed
    simp only at kind ownerToo bindings parent
    rw [kind, ownerToo, bindings, parent]

namespace Enclosed

variable {prior : ScopeId} {moved : List ScopeId} {owner : Site} {before after : Arena}

/-- Ways make a detour through the new scope where they come from a scope that has moved. -/
theorem way (enclosed : Enclosed prior moved owner before after) {start : Option ScopeId}
    {ids : List ScopeId} (way : Way before start ids) :
    Way after start (detour moved before.size ids) := by
  induction way with
  | outside => exact .outside
  | @step id scope ids found _ ih =>
      obtain ⟨changed, foundChanged, -, -, -, parent⟩ := enclosed.kept id scope found
      rw [detour]
      by_cases member : id ∈ moved
      · rw [if_pos member] at parent ⊢
        obtain ⟨children, new⟩ := enclosed.new
        have outer : scope.parent = some prior :=
          (parentOf_of_get? found).symm.trans (enclosed.inside id member)
        exact .step foundChanged (parent ▸ .step new (outer ▸ ih))
      · rw [if_neg member] at parent ⊢
        exact .step foundChanged (parent ▸ ih)

theorem way_new (enclosed : Enclosed prior moved owner before after) {ids : List ScopeId}
    (way : Way before (some prior) ids) :
    Way after (some before.size) (before.size :: detour moved before.size ids) := by
  obtain ⟨children, new⟩ := enclosed.new
  exact .step new (enclosed.way way)

theorem binding?_eq (enclosed : Enclosed prior moved owner before after) (id : ScopeId)
    (name : String) : after.binding? id name = before.binding? id name := by
  by_cases bound : id < before.size
  · obtain ⟨scope, found⟩ := get?_of_lt bound
    obtain ⟨changed, foundChanged, -, -, bindings, -⟩ := enclosed.kept id scope found
    rw [binding?_of_get? found, binding?_of_get? foundChanged, bindings]
  · unfold binding?
    rw [get?_of_not_lt bound]
    by_cases here : id = before.size
    · obtain ⟨children, new⟩ := enclosed.new
      rw [here, new]
      rfl
    · have beyond : ¬ id < after.size := by
        rw [enclosed.size, Nat.not_lt]
        exact Nat.lt_of_le_of_ne (Nat.le_of_not_lt bound) (Ne.symm here)
      rw [get?_of_not_lt beyond]

end Enclosed

end LoopCapture.Arena
