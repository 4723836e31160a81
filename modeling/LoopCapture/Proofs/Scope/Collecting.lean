import LoopCapture.Proofs.Scope.Visits

/-!
# Scopes of a program

The scopes around a node belong to nodes on its path, in the order of the path, and every function
and every block on the path has one of them.
-/

set_option autoImplicit false

namespace LoopCapture

/-! ## Scopes on a path -/

def Node.opensScope (node : Node) : Bool :=
  node.isFunction || decide (node.form = .block ∧ node.slot ≠ .functionBody)

namespace Arena

/-- The scopes of a way belong to the nodes of a path that open scopes. -/
inductive Covers (arena : Arena) : List Node → List ScopeId → Prop
  | outside : Covers arena [] []
  | opened {node : Node} {path : List Node} {id : ScopeId} {ids : List ScopeId} {scope : Scope} :
      arena.get? id = some scope → scope.owner = ⟨node, path⟩ → Covers arena path ids →
      Covers arena (node :: path) (id :: ids)
  | passed {node : Node} {path : List Node} {ids : List ScopeId} :
      node.opensScope = false → Covers arena path ids → Covers arena (node :: path) ids

/-- Every scope that covers a path belongs to a node of the path. -/
theorem Covers.owner {arena : Arena} {path : List Node} {ids : List ScopeId}
    (covers : Covers arena path ids) {id : ScopeId} (member : id ∈ ids) :
    ∃ scope, arena.get? id = some scope ∧ scope.owner.path <:+ path := by
  induction covers with
  | outside => cases member
  | @opened node path first rest scope found owner _ ih =>
      rcases List.mem_cons.mp member with rfl | later
      · exact ⟨scope, found, by rw [owner]; exact List.suffix_refl _⟩
      · obtain ⟨other, foundOther, suffix⟩ := ih later
        exact ⟨other, foundOther, suffix.trans (List.suffix_cons _ _)⟩
  | passed _ _ ih =>
      obtain ⟨other, foundOther, suffix⟩ := ih member
      exact ⟨other, foundOther, suffix.trans (List.suffix_cons _ _)⟩

/-- Every function on a covered path has a scope there. -/
theorem Covers.function {arena : Arena} {path : List Node} {ids : List ScopeId}
    (covers : Covers arena path ids) {node : Node} {above : List Node}
    (suffix : node :: above <:+ path) (function : node.isFunction = true) :
    ∃ id ∈ ids, ∃ scope, arena.get? id = some scope ∧ scope.owner = ⟨node, above⟩ := by
  induction covers with
  | outside => simp at suffix
  | @opened first path id ids scope found owner _ ih =>
      rcases List.suffix_cons_iff.mp suffix with same | further
      · obtain ⟨rfl, rfl⟩ := List.cons.inj same
        exact ⟨id, List.mem_cons_self, scope, found, owner⟩
      · obtain ⟨other, member, known⟩ := ih further
        exact ⟨other, List.mem_cons_of_mem _ member, known⟩
  | passed plain _ ih =>
      rcases List.suffix_cons_iff.mp suffix with same | further
      · obtain ⟨rfl, rfl⟩ := List.cons.inj same
        simp [Node.opensScope, function] at plain
      · exact ih further

/-- A node that opens a scope owns the first scope that covers its path. -/
theorem Covers.first {arena : Arena} {node : Node} {above : List Node} {id : ScopeId}
    {ids : List ScopeId} (covers : Covers arena (node :: above) (id :: ids))
    (opens : node.opensScope = true) :
    ∃ scope, arena.get? id = some scope ∧ scope.owner = ⟨node, above⟩ := by
  cases covers with
  | opened found owner _ => exact ⟨_, found, owner⟩
  | passed plain _ => cases plain.symm.trans opens

end Arena

/-! ## Scopes of the nodes of a program -/

namespace Resolution.Collected

open Arena Outline

variable {program : Program} {site : Site} {part : Outline} {visit : Visit}

theorem isSome_opening {children : List Outline} (opens : site.node.opensScope = true) :
    (opening site children).isSome = true := by
  unfold Node.opensScope Node.isFunction at opens
  unfold opening
  cases form : site.node.form with
  | function kind => rfl
  | block =>
      have free : site.node.slot ≠ .functionBody := by
        simpa [form, Form.isFunction] using opens
      simp only [if_neg free, Option.isSome_some]
  | _ => simp [form, Form.isFunction] at opens

theorem form_of_isName (member : site ∈ (ofProgram program).sites) {upper : Node}
    {above : List Node} (path : site.above = upper :: above)
    (named : site.node.slot.isName = true) :
    ∃ name, site.node.form = .identifier name := by
  have chained := chain_ofProgram (edges_shape program) member
  rw [Site.path, path] at chained
  exact (List.isChain_cons_cons.mp chained).1.1.name named

/-- What stands under a node is visited in the scope of the node. -/
theorem exists_visit_below (inside : part ∈ (ofProgram program).subtrees) {child : Outline}
    (among : child ∈ part.children) (unnamed : child.label.node.slot ≠ .functionName) :
    ∃ visit ∈ tour program, visit.part = child ∧
      (Resolution.collect (ofProgram program)).scopeOf[part.label.node.id]? = some visit.outer := by
  rcases Tree.mem_subtrees.mp inside with rfl | ⟨upper, upperMember, below⟩
  · obtain ⟨visit, member, same, outer⟩ := exists_visit_of_mem among _
    rw [if_neg unnamed] at outer
    refine ⟨visit, member, same, (walked_tour program).leads.scopeOf _ _ ?_⟩
    rw [outer]
    rfl
  · obtain ⟨upperVisit, member, rfl⟩ :=
      exists_visit (Tree.mem_subtreesAll.mpr ⟨upper, upperMember, below⟩)
    obtain ⟨visit, inVisits, same, outer⟩ := exists_visitAll_child member child among
    rw [if_neg unnamed] at outer
    exact ⟨visit, inVisits, same, outer ▸ scopeOf_visit member⟩

theorem get?_visit (member : visit ∈ tour program) {kind : ScopeKind}
    (opens : visit.opening? = some kind) :
    ∃ scope, (Resolution.collect (ofProgram program)).arena.get? visit.inner = some scope ∧
      scope.kind = kind ∧ scope.owner = visit.part.label ∧ scope.parent = some visit.outer := by
  obtain ⟨sound, bound, leads⟩ := (walked_tour program).visited visit member
  obtain ⟨scope, found, isKind, owner, parent⟩ := Visit.get?_inner sound bound opens
  obtain ⟨grown, foundGrown, kindToo, ownerToo, parentToo⟩ := leads.grows _ _ found
  exact ⟨grown, foundGrown, kindToo.trans isKind, ownerToo.trans owner, parentToo.trans parent⟩

/-- The scope of a node is the one around it, or a new one inside of that. -/
theorem way_inner (member : visit ∈ tour program) {ids : List ScopeId}
    (way : Way (Resolution.collect (ofProgram program)).arena (some visit.outer) ids) :
    visit.opening? = none ∧ visit.inner = visit.outer ∨
      ∃ scope, (Resolution.collect (ofProgram program)).arena.get? visit.inner = some scope ∧
        scope.owner = visit.part.label ∧
        Way (Resolution.collect (ofProgram program)).arena (some visit.inner)
          (visit.inner :: ids) := by
  cases opens : visit.opening? with
  | none => exact .inl ⟨rfl, Visit.inner_of_closed opens⟩
  | some kind =>
      obtain ⟨scope, found, -, owner, parent⟩ := get?_visit member opens
      exact .inr ⟨scope, found, owner, .step found (parent ▸ way)⟩

theorem unnamed_of_child (inside : part ∈ (ofProgram program).subtrees) {child : Outline}
    (among : child ∈ part.children) : part.label.node.slot ≠ .functionName := by
  have member := label_mem_sites (Tree.child_mem_subtrees inside among)
  have above := (((rooted_ofProgram program).subtree inside).child among).above_eq
  have chained := chain_ofProgram (edges_shape program) member
  rw [Site.path, above] at chained
  exact (List.isChain_cons_cons.mp chained).1.1.unnamed

theorem form_of_named (inside : part ∈ (ofProgram program).subtrees)
    (named : part.label.node.slot = .functionName) :
    ∃ name, part.label.node.form = .identifier name := by
  rcases Tree.exists_parent _ inside with rfl | ⟨upper, upperInside, child⟩
  · cases named
  · have above := (((rooted_ofProgram program).subtree upperInside).child child).above_eq
    exact form_of_isName (label_mem_sites inside) above (by rw [named]; rfl)

end Resolution.Collected

namespace Resolution

open Arena Outline Collected

/-- What is known of a scope that belongs to a part of an outline. -/
structure Owns (collected : Collected) (part : Outline) (id : ScopeId) : Prop where
  scope : ∃ scope, collected.arena.get? id = some scope ∧ scope.owner = part.label ∧
    scope.kind = (opening part.label part.children).getD .hoist
  opens : part.label.node.form = .program ∨ (opening part.label part.children).isSome = true
  place : collected.scopeOf[part.label.node.id]? = some id
  covers : ∃ ids, Way collected.arena (some id) ids ∧ Covers collected.arena part.label.path ids
  inside : ∀ site ∈ Tree.preorderAll part.children, site.node.slot ≠ .functionName →
    ∃ inner ids, collected.scopeOf[site.node.id]? = some inner ∧
      Way collected.arena (some inner) ids ∧ id ∈ ids

/-- What is known of the scopes of an outline after all of it has been followed. -/
structure Faithful (outline : Outline) (collected : Collected) : Prop where
  sound : collected.arena.Sound
  covered : ∀ site ∈ outline.sites, site.node.slot ≠ .functionName →
    ∃ id ids, collected.scopeOf[site.node.id]? = some id ∧ Way collected.arena (some id) ids ∧
      Covers collected.arena site.path ids
  owned : ∀ id < collected.arena.size, ∃ part ∈ outline.subtrees, Owns collected part id

section Program

variable {program : Program}

theorem get?_root (program : Program) : ∃ scope,
    (collect (ofProgram program)).arena.get? 0 = some scope ∧ scope.kind = .hoist ∧
      scope.owner = (ofProgram program).label ∧ scope.parent = none := by
  have found : (start (ofProgram program).label).arena.get? 0 = some _ :=
    (get?_start _ 0).trans (if_pos rfl)
  exact (walked_tour program).leads.grows _ _ found

/-- The scopes around a part of a program belong to the nodes on its path. -/
theorem covered_collect : ∀ part ∈ (ofProgram program).subtrees,
    part.label.node.slot ≠ .functionName →
    ∃ id ids, (collect (ofProgram program)).scopeOf[part.label.node.id]? = some id ∧
      Way (collect (ofProgram program)).arena (some id) ids ∧
      Covers (collect (ofProgram program)).arena part.label.path ids := by
  refine Tree.forall_subtrees ?_ ?_
  · intro _
    obtain ⟨scope, found, -, owner, parent⟩ := get?_root program
    refine ⟨0, [0], (walked_tour program).leads.scopeOf _ _ rfl, .step found ?_,
      .opened found owner .outside⟩
    rw [parent]
    exact .outside
  · intro part inside known child among unnamed
    obtain ⟨id, ids, place, way, covers⟩ := known (unnamed_of_child inside among)
    obtain ⟨visit, member, rfl, outer⟩ := exists_visit_below inside among unnamed
    obtain rfl := Option.some.inj (place.symm.trans outer)
    have above := (((rooted_ofProgram program).subtree inside).child among).above_eq
    rcases way_inner member way with ⟨closed, same⟩ | ⟨scope, found, owner, further⟩
    · refine ⟨visit.outer, ids, same ▸ scopeOf_visit member, way, .passed ?_ (above ▸ covers)⟩
      by_contra always
      have opened : visit.opening?.isSome = true := isSome_opening (Bool.not_eq_false _ ▸ always)
      rw [closed] at opened
      cases opened
    · exact ⟨visit.inner, visit.inner :: ids, scopeOf_visit member, further,
        .opened found owner (above ▸ covers)⟩

/-- The scopes inside a part of a program that has a scope of its own. -/
theorem inside_collect {whole : Outline} (inside : whole ∈ (ofProgram program).subtrees)
    {id : ScopeId} {ids : List ScopeId}
    (place : (collect (ofProgram program)).scopeOf[whole.label.node.id]? = some id)
    (way : Way (collect (ofProgram program)).arena (some id) ids) :
    ∀ part ∈ whole.subtrees, part.label.node.slot ≠ .functionName →
    ∃ inner ids, (collect (ofProgram program)).scopeOf[part.label.node.id]? = some inner ∧
      Way (collect (ofProgram program)).arena (some inner) ids ∧ id ∈ ids := by
  refine Tree.forall_subtrees ?_ ?_
  · intro _
    obtain ⟨rest, rfl⟩ := way.head
    exact ⟨id, _, place, way, List.mem_cons_self⟩
  · intro part within known child among unnamed
    have partInside := Tree.subtrees_subset inside within
    obtain ⟨inner, ids, placed, further, member⟩ := known (unnamed_of_child partInside among)
    obtain ⟨visit, visited, rfl, outer⟩ := exists_visit_below partInside among unnamed
    obtain rfl := Option.some.inj (placed.symm.trans outer)
    rcases way_inner visited further with ⟨-, same⟩ | ⟨scope, -, -, longer⟩
    · exact ⟨visit.outer, ids, same ▸ scopeOf_visit visited, further, member⟩
    · exact ⟨visit.inner, _, scopeOf_visit visited, longer, List.mem_cons_of_mem _ member⟩

theorem owns_collect {part : Outline} (inside : part ∈ (ofProgram program).subtrees)
    (unnamed : part.label.node.slot ≠ .functionName)
    (opens : part.label.node.form = .program ∨ (opening part.label part.children).isSome = true)
    {id : ScopeId} (scope : ∃ scope, (collect (ofProgram program)).arena.get? id = some scope ∧
      scope.owner = part.label ∧ scope.kind = (opening part.label part.children).getD .hoist)
    (place : (collect (ofProgram program)).scopeOf[part.label.node.id]? = some id) :
    Owns (collect (ofProgram program)) part id := by
  obtain ⟨same, ids, placed, way, covers⟩ := covered_collect part inside unnamed
  obtain rfl := Option.some.inj (place.symm.trans placed)
  refine ⟨scope, opens, place, ⟨ids, way, covers⟩, fun site member => ?_⟩
  obtain ⟨child, among, within⟩ := Tree.mem_preorderAll.mp member
  obtain ⟨below, inChild, rfl⟩ := exists_subtree within
  exact inside_collect inside place way below (Tree.mem_subtrees.mpr (.inr ⟨child, among, inChild⟩))

/-- The scopes of a program are those of its outline. -/
theorem faithful_collect (program : Program) :
    Faithful (ofProgram program) (collect (ofProgram program)) where
  sound := (walked_tour program).sound
  covered site member unnamed := by
    obtain ⟨part, inside, rfl⟩ := exists_subtree member
    exact covered_collect part inside unnamed
  owned id bound := by
    by_cases outermost : id < (start (ofProgram program).label).arena.size
    · obtain rfl : id = 0 := Nat.lt_one_iff.mp outermost
      obtain ⟨scope, found, kind, owner, -⟩ := get?_root program
      exact ⟨_, Tree.self_mem_subtrees _,
        owns_collect (Tree.self_mem_subtrees _) (by nofun) (.inl rfl) ⟨scope, found, owner, kind⟩
          ((walked_tour program).leads.scopeOf _ _ rfl)⟩
    · obtain ⟨visit, member, opens, rfl⟩ := exists_openingAll (Nat.le_of_not_lt outermost) bound
      have inside := part_mem_subtrees member
      obtain ⟨kind, opened⟩ := Option.isSome_iff_exists.mp opens
      obtain ⟨scope, found, isKind, owner, -⟩ := get?_visit member opened
      have same : kind = visit.opening?.getD .hoist := by rw [opened, Option.getD_some]
      refine ⟨visit.part, inside, owns_collect inside ?_ (.inr opens)
        ⟨scope, found, owner, isKind.trans same⟩ (scopeOf_visit member)⟩
      intro named
      obtain ⟨name, form⟩ := form_of_named inside named
      simp [Visit.opening?, opening, form] at opened

/-- The declaration of a reference is looked up among the scopes that the walk has collected. -/
theorem declaredIn?_of_mem {site : Site} (member : site ∈ (ofProgram program).sites) :
    (ofOutline (ofProgram program)).declaredIn? site.node =
      declaringScope? (collect (ofProgram program)).arena (collect (ofProgram program)).scopeOf
        site.node := by
  simp [declaredIn?, ofOutline, getElem?_sites member]

end Program

end Resolution

end LoopCapture
