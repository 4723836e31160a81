import LoopCapture.Scope.Arena
import Mathlib.Data.List.Basic
import Mathlib.Data.List.Nodup
import Mathlib.Data.List.Perm.Subperm
import Mathlib.Tactic.Common

/-!
# Ways up in an arena

A way from a scope on leads through the scopes around it to the outermost one. It is finite, so it
visits no scope twice, and the search for ancestors finds it whole. Changes of an arena are described
by what they do to the ways in it.
-/

set_option autoImplicit false

namespace LoopCapture.Arena

variable {id : ScopeId}

/-! ## Operations -/

variable {arena : Arena}

theorem get?_lt {scope : Scope} (found : arena.get? id = some scope) :
    id < arena.size :=
  (Array.getElem?_eq_some_iff.mp found).1

theorem get?_of_lt (bound : id < arena.size) : ∃ scope, arena.get? id = some scope :=
  ⟨arena.scopes[id], Array.getElem?_eq_getElem bound⟩

theorem get?_of_not_lt (beyond : ¬ id < arena.size) : arena.get? id = none :=
  Array.getElem?_eq_none_iff.mpr (Nat.le_of_not_lt beyond)

theorem get?_modify (arena : Arena) (id other : ScopeId) (change : Scope → Scope) :
    (arena.modify id change).get? other =
      if other = id then (arena.get? other).map change else arena.get? other := by
  unfold Arena.modify Arena.get?
  rw [Array.getElem?_modify]
  simp only [eq_comm]

theorem size_modify (arena : Arena) (id : ScopeId) (change : Scope → Scope) :
    (arena.modify id change).size = arena.size := by
  simp [Arena.modify, Arena.size]

def parentOf (arena : Arena) (id : ScopeId) : Option ScopeId := (arena.get? id).bind Scope.parent

/-- The scopes that a scope has noted as directly inside it. -/
def childrenOf (arena : Arena) (id : ScopeId) : List ScopeId :=
  ((arena.get? id).map Scope.children).getD []

theorem parentOf_of_get? {scope : Scope} (found : arena.get? id = some scope) :
    arena.parentOf id = scope.parent := by
  simp [parentOf, found]

theorem childrenOf_of_get? {scope : Scope} (found : arena.get? id = some scope) :
    arena.childrenOf id = scope.children := by
  simp [childrenOf, found]

theorem parentOf_of_not_lt (beyond : ¬ id < arena.size) :
    arena.parentOf id = none := by
  rw [parentOf, get?_of_not_lt beyond]
  rfl

/-! ## Ways -/

/-- A position and the scopes on the way up from there. -/
inductive Way (arena : Arena) : Option ScopeId → List ScopeId → Prop
  | outside : Way arena none []
  | step {id : ScopeId} {scope : Scope} {ids : List ScopeId} :
      arena.get? id = some scope → Way arena scope.parent ids → Way arena (some id) (id :: ids)

namespace Way

variable {start : Option ScopeId} {ids others : List ScopeId}
variable {id : ScopeId}

theorem unique (way : Way arena start ids) : ∀ {others : List ScopeId}, Way arena start others →
    ids = others := by
  induction way with
  | outside =>
      intro others other
      cases other
      rfl
  | step found _ ih =>
      intro others other
      cases other with
      | step foundToo rest =>
          rw [found] at foundToo
          obtain rfl := Option.some.inj foundToo
          rw [ih rest]

theorem lt_size (way : Way arena start ids) : ∀ id ∈ ids, id < arena.size := by
  induction way with
  | outside => simp
  | step found _ ih =>
      exact List.forall_mem_cons.mpr ⟨get?_lt found, ih⟩

/-- From every scope on a way the rest of the way leads up. -/
theorem from_suffix {after : List ScopeId} (way : Way arena start ids)
    (suffix : id :: after <:+ ids) : Way arena (some id) (id :: after) := by
  induction way with
  | outside => simp at suffix
  | step found rest ih =>
      rcases List.suffix_cons_iff.mp suffix with same | inner
      · obtain ⟨rfl, rfl⟩ := List.cons.inj same
        exact .step found rest
      · exact ih inner

theorem nodup (way : Way arena start ids) : ids.Nodup := by
  induction way with
  | outside => exact List.nodup_nil
  | @step id scope rest found up ih =>
      refine List.nodup_cons.mpr ⟨fun again => ?_, ih⟩
      -- A second visit would start a shorter way from the same scope.
      obtain ⟨before, after, split⟩ := List.append_of_mem again
      have shorter : Way arena (some id) (id :: after) :=
        up.from_suffix (split ▸ List.suffix_append before (id :: after))
      have same := List.cons.inj ((Way.step found up).unique shorter)
      have lengths := congrArg List.length same.2
      rw [split, List.length_append, List.length_cons] at lengths
      omega

theorem length_le (way : Way arena start ids) : ids.length ≤ arena.size := by
  have inside : ids ⊆ List.range arena.size := fun id member =>
    List.mem_range.mpr (way.lt_size id member)
  have short := (way.nodup.subperm inside).length_le
  rwa [List.length_range] at short

theorem climb_eq (way : Way arena start ids) : ∀ {bound : Nat}, ids.length ≤ bound →
    arena.climb bound start = ⟨ids, false⟩ := by
  induction way with
  | outside =>
      intro bound _
      cases bound <;> rfl
  | step found _ ih =>
      intro bound enough
      cases bound with
      | zero => simp at enough
      | succ bound =>
          have rest := ih (Nat.le_of_succ_le_succ enough)
          simp only [climb, found, rest]

theorem ancestors_eq (way : Way arena (some id) ids) : arena.ancestors id = ids := by
  rw [ancestors, chain, way.climb_eq way.length_le]

theorem closestHoist_mem (way : Way arena (some id) ids) :
    arena.closestHoist id ∈ ids := by
  unfold closestHoist
  rw [way.ancestors_eq]
  dsimp only
  cases found : ids.find? arena.hoists with
  | some target => exact List.mem_of_find?_eq_some found
  | none =>
      cases way with
      | step _ _ =>
          rw [List.getLast?_eq_getLast_of_ne_nil (List.cons_ne_nil _ _)]
          exact List.getLast_mem _

theorem lookup_mem {holder : ScopeId} {name : String} (way : Way arena (some id) ids)
    (found : arena.lookup id name = some holder) :
    holder ∈ ids ∧ arena.declares holder name = true := by
  unfold lookup at found
  rw [way.ancestors_eq] at found
  exact ⟨List.mem_of_find?_eq_some found, by simpa using List.find?_some found⟩

theorem head (way : Way arena (some id) ids) : ∃ rest, ids = id :: rest := by
  cases way with
  | step found rest => exact ⟨_, rfl⟩

theorem parent (way : Way arena (some id) (id :: ids)) :
    Way arena (arena.parentOf id) ids := by
  cases way with
  | step found rest => exact (parentOf_of_get? found) ▸ rest

theorem bound (way : Way arena (some id) ids) : id < arena.size := by
  obtain ⟨rest, rfl⟩ := way.head
  exact way.lt_size id List.mem_cons_self

/-- A way in an arena is a way in every arena in which its scopes have the same parents. -/
theorem mono {other : Arena} (way : Way arena start ids)
    (same : ∀ id scope, arena.get? id = some scope →
      ∃ changed, other.get? id = some changed ∧ changed.parent = scope.parent) :
    Way other start ids := by
  induction way with
  | outside => exact .outside
  | step found _ ih =>
      obtain ⟨changed, foundToo, parents⟩ := same _ _ found
      exact .step foundToo (parents ▸ ih)

end Way

end LoopCapture.Arena
