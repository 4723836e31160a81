import LoopCapture.Proofs.Scope.Collecting
import LoopCapture.Proofs.Scope.Enclosing
import LoopCapture.Proofs.Wrapping.Steps

/-!
# Scopes stay a lexical tree

Scopes lie inside each other as the nodes that open them do. That holds when the scopes of a program
have been collected, and wrapping a loop keeps it: a body with braces keeps its scope, and the new
scope of any other body comes between the scopes around the body and those inside it, which the
places of their nodes in the text tell apart.
-/

set_option autoImplicit false

namespace LoopCapture

open Arena Outline Relation

/-! ## Scopes that keep their places -/

namespace Arena

/-- Scopes keep their owners and their places among each other. -/
structure Framed (before after : Arena) : Prop where
  size : after.size = before.size
  kept : ∀ id scope, before.get? id = some scope → ∃ changed, after.get? id = some changed ∧
    changed.owner = scope.owner ∧ changed.parent = scope.parent ∧ changed.children = scope.children

namespace Framed

variable {first second : Arena}

theorem refl (arena : Arena) : Framed arena arena :=
  ⟨rfl, fun _ scope found => ⟨scope, found, rfl, rfl, rfl⟩⟩

theorem modify (arena : Arena) (id : ScopeId) {change : Scope → Scope}
    (same : ∀ scope, (change scope).owner = scope.owner ∧ (change scope).parent = scope.parent ∧
      (change scope).children = scope.children) : Framed arena (arena.modify id change) := by
  refine ⟨size_modify _ _ _, fun other scope found => ?_⟩
  rw [get?_modify, found]
  split
  · exact ⟨_, rfl, same scope⟩
  · exact ⟨scope, rfl, rfl, rfl, rfl⟩

theorem of_get? (framed : Framed first second) {id : ScopeId} {scope : Scope}
    (found : second.get? id = some scope) : ∃ old, first.get? id = some old ∧
      scope.owner = old.owner ∧ scope.parent = old.parent ∧ scope.children = old.children := by
  obtain ⟨old, foundOld⟩ := get?_of_lt (framed.size ▸ get?_lt found)
  obtain ⟨changed, foundChanged, known⟩ := framed.kept id old foundOld
  rw [found] at foundChanged
  obtain rfl := Option.some.inj foundChanged
  exact ⟨old, foundOld, known⟩

theorem parentOf_eq (framed : Framed first second) (id : ScopeId) :
    second.parentOf id = first.parentOf id := by
  by_cases bound : id < first.size
  · obtain ⟨scope, found⟩ := get?_of_lt bound
    obtain ⟨changed, foundChanged, -, parent, -⟩ := framed.kept id scope found
    rw [parentOf_of_get? found, parentOf_of_get? foundChanged, parent]
  · have beyond : ¬ id < second.size := framed.size ▸ bound
    rw [parentOf_of_not_lt bound, parentOf_of_not_lt beyond]

theorem childrenOf_eq (framed : Framed first second) (id : ScopeId) :
    second.childrenOf id = first.childrenOf id := by
  by_cases bound : id < first.size
  · obtain ⟨scope, found⟩ := get?_of_lt bound
    obtain ⟨changed, foundChanged, -, -, children⟩ := framed.kept id scope found
    rw [childrenOf_of_get? found, childrenOf_of_get? foundChanged, children]
  · have beyond : ¬ id < second.size := framed.size ▸ bound
    unfold childrenOf
    rw [get?_of_not_lt bound, get?_of_not_lt beyond]

theorem way (framed : Framed first second) {start : Option ScopeId} {ids : List ScopeId}
    (way : Way first start ids) : Way second start ids :=
  way.mono fun id scope found =>
    let ⟨changed, foundChanged, _, parent, _⟩ := framed.kept id scope found
    ⟨changed, foundChanged, parent⟩

theorem linked (framed : Framed first second) (linked : first.Linked) : second.Linked where
  agree id child := by
    rw [framed.childrenOf_eq, framed.parentOf_eq]
    exact linked.agree id child
  once id := framed.childrenOf_eq id ▸ linked.once id

end Framed

end Arena

/-! ## Lexical scopes -/

/-- Scopes lie inside each other as their owners do, in one tree, and the scope of a node belongs to
the node or to one above it. -/
structure Resolution.Lexical (outline : Outline) (resolution : Resolution) : Prop where
  linked : resolution.arena.Linked
  root : ∃ scope, resolution.arena.get? 0 = some scope ∧ scope.parent = none
  outermost : ∀ id scope, resolution.arena.get? id = some scope → scope.parent = none → id = 0
  ways : ∀ id < resolution.arena.size, ∃ ids, Way resolution.arena (some id) ids
  owners : ∀ id scope, resolution.arena.get? id = some scope → scope.owner ∈ outline.sites
  nested : ∀ id scope outer around, resolution.arena.get? id = some scope →
    scope.parent = some outer → resolution.arena.get? outer = some around →
      around.owner.path <:+ scope.owner.path
  placed : ∀ site ∈ outline.sites, site.node.slot ≠ .functionName →
    ∃ id scope, resolution.scope? site.node = some id ∧ resolution.arena.get? id = some scope ∧
      scope.owner.path <:+ site.path

namespace Resolution

variable {outline : Outline} {resolution : Resolution}

theorem lexical_ofOutline (program : Program) :
    Lexical (ofProgram program) (ofOutline (ofProgram program)) := by
  have faithful := faithful_collect program
  refine ⟨faithful.sound.linked, ?_, faithful.sound.outermost, faithful.sound.way, ?_, ?_, ?_⟩
  · obtain ⟨id, ids, -, way, -⟩ :=
      faithful.covered (ofProgram program).label (label_mem_sites (Tree.self_mem_subtrees _)) (by nofun)
    obtain ⟨scope, found⟩ := get?_of_lt (Nat.zero_lt_of_lt way.bound)
    cases parent : scope.parent with
    | none => exact ⟨scope, found, parent⟩
    | some outer =>
        have earlier := faithful.sound.upward 0 outer ((parentOf_of_get? found).trans parent)
        exact absurd earlier (Nat.not_lt_zero outer)
  · intro id scope found
    obtain ⟨part, inside, owns⟩ := faithful.owned id (get?_lt found)
    obtain ⟨same, foundToo, owner, -⟩ := owns.scope
    obtain rfl := Option.some.inj (foundToo.symm.trans found)
    exact owner ▸ label_mem_sites inside
  · intro id scope outer around found parent foundAround
    obtain ⟨part, -, owns⟩ := faithful.owned id (get?_lt found)
    obtain ⟨same, foundToo, owner, -⟩ := owns.scope
    obtain rfl := Option.some.inj (foundToo.symm.trans found)
    obtain ⟨ids, way, covers⟩ := owns.covers
    obtain ⟨rest, rfl⟩ := way.head
    have further := way.parent
    rw [parentOf_of_get? foundToo, parent] at further
    obtain ⟨others, rfl⟩ := further.head
    obtain ⟨known, foundKnown, suffix⟩ := covers.owner (List.mem_cons_of_mem _ List.mem_cons_self)
    obtain rfl := Option.some.inj (foundKnown.symm.trans foundAround)
    rw [owner]
    exact suffix
  · intro site member unnamed
    obtain ⟨id, ids, place, way, covers⟩ := faithful.covered site member unnamed
    obtain ⟨rest, rfl⟩ := way.head
    obtain ⟨scope, found, suffix⟩ := covers.owner List.mem_cons_self
    exact ⟨id, scope, place, found, suffix⟩

namespace Lexical

theorem framed {changed : Resolution} (lexical : Lexical outline resolution)
    (framed : Framed resolution.arena changed.arena) (same : changed.scopeOf = resolution.scopeOf) :
    Lexical outline changed where
  linked := framed.linked lexical.linked
  root := by
    obtain ⟨scope, found, none⟩ := lexical.root
    obtain ⟨changed, foundChanged, -, parent, -⟩ := framed.kept 0 scope found
    exact ⟨changed, foundChanged, parent.trans none⟩
  outermost id scope found none := by
    obtain ⟨old, foundOld, -, parent, -⟩ := framed.of_get? found
    exact lexical.outermost id old foundOld (parent ▸ none)
  ways id bound := by
    obtain ⟨ids, way⟩ := lexical.ways id (framed.size ▸ bound)
    exact ⟨ids, framed.way way⟩
  owners id scope found := by
    obtain ⟨old, foundOld, owner, -⟩ := framed.of_get? found
    exact owner ▸ lexical.owners id old foundOld
  nested id scope outer around found parent foundAround := by
    obtain ⟨old, foundOld, owner, parentToo, -⟩ := framed.of_get? found
    obtain ⟨oldAround, foundOldAround, ownerAround, -⟩ := framed.of_get? foundAround
    rw [owner, ownerAround]
    exact lexical.nested id old outer oldAround foundOld (parentToo ▸ parent) foundOldAround
  placed site member unnamed := by
    obtain ⟨id, scope, place, found, suffix⟩ := lexical.placed site member unnamed
    obtain ⟨grown, foundGrown, owner, -⟩ := framed.kept id scope found
    refine ⟨id, grown, ?_, foundGrown, owner ▸ suffix⟩
    rw [scope?, same]
    exact place

/-- The way from a scope ends at the first scope. -/
theorem way_last (lexical : Lexical outline resolution) {id : ScopeId} {ids : List ScopeId}
    (way : Way resolution.arena (some id) ids) : ids.getLast? = some 0 := by
  obtain ⟨start, same⟩ : ∃ start, start = some id := ⟨_, rfl⟩
  rw [← same] at way
  induction way generalizing id with
  | outside => cases same
  | @step other scope ids found rest ih =>
      cases parent : scope.parent with
      | none =>
          rw [parent] at rest
          cases rest
          rw [lexical.outermost other scope found parent]
          rfl
      | some outer =>
          have last := ih parent
          rw [parent] at rest
          obtain ⟨others, rfl⟩ := rest.head
          rw [List.getLast?_cons_cons]
          exact last

end Lexical

end Resolution

/-! ## A scope for a body -/

namespace Wrapping

variable {outline : Outline} {resolution : Resolution} {loop body : Outline} {scope : ScopeId}

def scopeAround (arena : Arena) (body : Site) (scope : ScopeId) : ScopeId :=
  if opens arena body scope then (arena.parentOf scope).getD scope else scope

def scopesWithin (arena : Arena) (body : Site) (prior : ScopeId) : List ScopeId :=
  (arena.childrenOf prior).filter fun child =>
    (arena.get? child).any (·.owner.node.loc.within body.node.loc)

theorem wrapScope_eq (resolution : Resolution) (body : Outline) (scope : ScopeId) :
    wrapScope resolution body scope =
      let arena := resolution.arena
      let prior := scopeAround arena body.label scope
      ({ resolution with
        arena := (scopesWithin arena body.label prior).foldl
          (fun grown child => grown.reparent child arena.size)
          (arena.add .hoist body.label (some prior)).1
        scopeOf := body.sites.foldl (fun scopeOf site => scopeOf.modify site.node.id fun old =>
          if old = prior then arena.size else old) resolution.scopeOf }, arena.size) :=
  rfl

theorem scopeAround_cases (arena : Arena) (body : Site) (scope : ScopeId) :
    scopeAround arena body scope = scope ∨
      arena.parentOf scope = some (scopeAround arena body scope) := by
  unfold scopeAround
  split
  · cases arena.parentOf scope with
    | none => exact .inl rfl
    | some outer => exact .inr rfl
  · exact .inl rfl

theorem within_of_mem_scopesWithin {arena : Arena} {body : Site} {prior id : ScopeId}
    (member : id ∈ scopesWithin arena body prior) :
    ∃ scope, arena.get? id = some scope ∧ scope.owner.node.loc.within body.node.loc = true := by
  have passed := (List.mem_filter.mp member).2
  cases found : arena.get? id with
  | none => simp [found] at passed
  | some scope => exact ⟨scope, rfl, by simpa [found] using passed⟩

/-- What happens when a body without braces gets a scope inside another one. -/
structure Rescoped (body : Outline) (prior : ScopeId) (before after : Resolution) : Prop where
  enclosed : Enclosed prior (scopesWithin before.arena body.label prior) body.label
    before.arena after.arena
  scopeOf : ∀ (place : Nat) (old : ScopeId), before.scopeOf[place]? = some old →
    after.scopeOf[place]? = some
      (if place ∈ body.sites.map (·.node.id) ∧ old = prior then before.arena.size else old)
  declaredIn : after.declaredIn = before.declaredIn

private theorem getElem?_rescope {prior id : ScopeId} (different : id ≠ prior) (sites : List Site)
    {scopeOf : Array ScopeId} {place : Nat} {old : ScopeId} (known : scopeOf[place]? = some old) :
    (sites.foldl (fun scopeOf site => scopeOf.modify site.node.id fun old =>
      if old = prior then id else old) scopeOf)[place]? =
        some (if place ∈ sites.map (·.node.id) ∧ old = prior then id else old) := by
  induction sites generalizing scopeOf old with
  | nil => simp [known]
  | cons site sites ih =>
      have next : (scopeOf.modify site.node.id fun old => if old = prior then id else old)[place]? =
          some (if site.node.id = place ∧ old = prior then id else old) := by
        rw [Array.getElem?_modify, known]
        by_cases here : site.node.id = place <;> simp [here]
      rw [List.foldl_cons, ih next]
      by_cases here : site.node.id = place
      · by_cases same : old = prior
        · simp [here, same, different]
        · simp [here, same]
      · simp [here, Ne.symm here]

theorem rescoped_wrapScope (linked : resolution.arena.Linked)
    (bound : scope < resolution.arena.size) :
    Rescoped body (scopeAround resolution.arena body.label scope) resolution
      (wrapScope resolution body scope).1 := by
  have priorBound : scopeAround resolution.arena body.label scope < resolution.arena.size := by
    rcases scopeAround_cases resolution.arena body.label scope with here | around
    · rwa [here]
    · exact linked.parent_lt around
  rw [wrapScope_eq]
  constructor
  · exact enclosed_foldl body.label linked priorBound fun _ member => (List.mem_filter.mp member).1
  · intro place old known
    exact getElem?_rescope (Nat.ne_of_gt priorBound) body.sites known
  · rfl

theorem suffix_of_within (regular : Regular outline) (inside : loop ∈ outline.subtrees)
    (bodied : loop.loopBody? = some body) {owner : Site} (member : owner ∈ outline.sites)
    (within : owner.node.loc.within body.label.node.loc = true) :
    body.label.path <:+ owner.path := by
  obtain ⟨innerMember, above, -, -, behind⟩ := regular.body inside bodied
  have bodyMember := label_mem_sites innerMember
  rcases regular.comparable member bodyMember within with below | upper
  · exact regular.suffix_of_mem member bodyMember below
  · rcases List.mem_cons.mp upper with same | higher
    · have here : body.label.node ∈ owner.path := same ▸ List.mem_cons_self
      exact regular.suffix_of_mem member bodyMember here
    · -- Nodes above a body start before it, as the loop does.
      exfalso
      have starts : body.label.node.loc.start ≤ owner.node.loc.start := by
        simp only [Loc.within, Bool.and_eq_true, decide_eq_true_eq] at within
        exact within.1
      rw [above] at higher
      rcases List.mem_cons.mp higher with same | upward
      · rw [same] at starts
        omega
      · have chained := regular.places loop.label (label_mem_sites inside)
        have outer := (loc_of_mem_path chained owner.node upward).1
        have first := owner.node.toLabel.start_le_inside
        omega

theorem Rescoped.lexical {after : Resolution} {prior : ScopeId} (regular : Regular outline)
    (lexical : Resolution.Lexical outline resolution) (inside : loop ∈ outline.subtrees)
    (bodied : loop.loopBody? = some body) (rescoped : Rescoped body prior resolution after)
    {around : Scope} (found : resolution.arena.get? prior = some around)
    (outside : around.owner.path <:+ body.label.path) : Resolution.Lexical outline after := by
  have enclosed := rescoped.enclosed
  have bodyInside := (regular.body inside bodied).1
  obtain ⟨children, new⟩ := enclosed.new
  -- A scope of the new arena is an old one with a new parent, or the new one.
  have cases (id : ScopeId) (scope : Scope) (found : after.arena.get? id = some scope) :
      (∃ old, resolution.arena.get? id = some old ∧ scope.owner = old.owner ∧ scope.parent =
        if id ∈ scopesWithin resolution.arena body.label prior then some resolution.arena.size
        else old.parent) ∨
      id = resolution.arena.size ∧ scope.owner = body.label ∧ scope.parent = some prior := by
    by_cases bound : id < resolution.arena.size
    · obtain ⟨old, foundOld⟩ := get?_of_lt bound
      obtain ⟨changed, foundChanged, -, owner, -, parent⟩ := enclosed.kept id old foundOld
      rw [found] at foundChanged
      obtain rfl := Option.some.inj foundChanged
      exact .inl ⟨old, foundOld, owner, parent⟩
    · have within := get?_lt found
      rw [enclosed.size] at within
      have here : id = resolution.arena.size :=
        Nat.le_antisymm (Nat.le_of_lt_succ within) (Nat.le_of_not_lt bound)
      rw [here, new] at found
      obtain rfl := Option.some.inj found
      exact .inr ⟨here, rfl, rfl⟩
  have priorBound := get?_lt found
  constructor
  · exact enclosed.linked
  · obtain ⟨root, foundRoot, none⟩ := lexical.root
    obtain ⟨changed, foundChanged, -, -, -, parent⟩ := enclosed.kept 0 root foundRoot
    have stays : 0 ∉ scopesWithin resolution.arena body.label prior := by
      intro member
      have moved := enclosed.inside 0 member
      rw [parentOf_of_get? foundRoot, none] at moved
      cases moved
    exact ⟨changed, foundChanged, (parent.trans (if_neg stays)).trans none⟩
  · intro id scope foundScope none
    rcases cases id scope foundScope with ⟨old, foundOld, -, changed⟩ | ⟨-, -, changed⟩
    · split at changed
      · rw [none] at changed
        cases changed
      · exact lexical.outermost id old foundOld (changed ▸ none)
    · rw [none] at changed
      cases changed
  · intro id bound
    rw [enclosed.size] at bound
    by_cases old : id < resolution.arena.size
    · obtain ⟨ids, way⟩ := lexical.ways id old
      exact ⟨_, enclosed.way way⟩
    · obtain ⟨ids, way⟩ := lexical.ways prior priorBound
      have here : id = resolution.arena.size :=
        Nat.le_antisymm (Nat.le_of_lt_succ bound) (Nat.le_of_not_lt old)
      exact ⟨_, here ▸ enclosed.way_new way⟩
  · intro id scope foundScope
    rcases cases id scope foundScope with ⟨old, foundOld, owner, -⟩ | ⟨-, owner, -⟩
    · exact owner ▸ lexical.owners id old foundOld
    · exact owner ▸ label_mem_sites bodyInside
  · intro id scope outer outerScope foundScope parent foundOuter
    rcases cases id scope foundScope with ⟨old, foundOld, owner, changed⟩ | ⟨-, owner, changed⟩
    · rw [owner]
      split at changed
      · rename_i member
        obtain ⟨inner, foundInner, within⟩ := within_of_mem_scopesWithin member
        rw [foundOld] at foundInner
        obtain rfl := Option.some.inj foundInner
        obtain rfl := Option.some.inj (changed.symm.trans parent)
        rw [new] at foundOuter
        obtain rfl := Option.some.inj foundOuter
        exact suffix_of_within regular inside bodied (lexical.owners id old foundOld) within
      · have parentOld := changed.symm.trans parent
        rcases cases outer outerScope foundOuter with ⟨former, foundFormer, ownerToo, -⟩ | ⟨here, -⟩
        · rw [ownerToo]
          exact lexical.nested id old outer former foundOld parentOld foundFormer
        · have bound := lexical.linked.parent_lt ((parentOf_of_get? foundOld).trans parentOld)
          exact absurd bound (here ▸ Nat.lt_irrefl _)
    · obtain rfl := Option.some.inj (changed.symm.trans parent)
      rcases cases prior outerScope foundOuter with ⟨former, foundFormer, ownerToo, -⟩ | ⟨here, -⟩
      · rw [found] at foundFormer
        obtain rfl := Option.some.inj foundFormer
        rw [owner, ownerToo]
        exact outside
      · exact absurd priorBound (here ▸ Nat.lt_irrefl _)
  · intro site member unnamed
    obtain ⟨id, scope, place, foundScope, suffix⟩ := lexical.placed site member unnamed
    have placed := rescoped.scopeOf site.node.id id place
    by_cases moves : site.node.id ∈ body.sites.map (·.node.id) ∧ id = prior
    · rw [if_pos moves] at placed
      obtain ⟨other, among, same⟩ := List.mem_map.mp moves.1
      have here : other = site :=
        regular.eq_of_id (Tree.preorder_subset bodyInside among) member same
      exact ⟨_, _, placed, new, regular.path_suffix bodyInside (here ▸ among)⟩
    · rw [if_neg moves] at placed
      obtain ⟨changed, foundChanged, -, owner, -⟩ := enclosed.kept id scope foundScope
      exact ⟨id, changed, placed, foundChanged, owner ▸ suffix⟩

/-! ## Wrapping a loop -/

theorem target?_eq_some {state : Wrapping} {target : Target}
    (fits : state.target? loop = some target) :
    loop.loopBody? = some target.body ∧ target.loop = loop.label ∧
      ∃ scope, state.resolution.scope? target.body.label.node = some scope ∧
        (target.bodyScope = none ∨ target.bodyScope = some scope ∧
          target.body.label.node.form = .block ∧
            opens state.resolution.arena target.body.label scope = true) := by
  simp only [target?, bind, Option.bind_eq_some_iff] at fits
  obtain ⟨body, bodied, scope, placed, made⟩ := fits
  obtain rfl := Option.some.inj made
  refine ⟨bodied, rfl, scope, placed, ?_⟩
  dsimp only
  split
  · rename_i braced
    simp only [Bool.and_eq_true, decide_eq_true_eq] at braced
    exact .inr ⟨rfl, braced⟩
  · exact .inl rfl

theorem framed_declareParam (arena : Arena) (wrapper : ScopeId) (param : Option Node) :
    Framed arena (declareParam arena wrapper param) := by
  unfold declareParam
  split
  · exact .refl arena
  · dsimp only
    split
    · exact .refl arena
    · exact .modify arena wrapper fun _ => ⟨rfl, rfl, rfl⟩

/-- A body with braces keeps its scope, every other one gets a scope of its own. -/
theorem wrapperScope_cases {state : Wrapping} {target : Target} (regular : Regular outline)
    (lexical : Resolution.Lexical outline state.resolution) (inside : loop ∈ outline.subtrees)
    (fits : state.target? loop = some target) :
    (∃ prior around, target.bodyScope = none ∧ state.resolution.arena.get? prior = some around ∧
      around.owner.path <:+ target.body.label.path ∧
      Rescoped target.body prior state.resolution (wrapperScope state.resolution target).1 ∧
      (wrapperScope state.resolution target).2 = state.resolution.arena.size) ∨
    ∃ scope own, target.bodyScope = some scope ∧
      state.resolution.scope? target.body.label.node = some scope ∧
      state.resolution.arena.get? scope = some own ∧ own.owner = target.body.label ∧
      target.body.label.node.form = .block ∧
      wrapperScope state.resolution target = ({ state.resolution with
        arena := state.resolution.arena.setKind scope .hoist }, scope) := by
  obtain ⟨bodied, -, scope, placed, braced⟩ := target?_eq_some fits
  obtain ⟨bodyInside, -, slot, -⟩ := regular.body inside bodied
  have member := label_mem_sites bodyInside
  obtain ⟨id, own, place, found, suffix⟩ :=
    lexical.placed target.body.label member (by simp [slot])
  obtain rfl := Option.some.inj (placed.symm.trans place)
  rcases braced with bare | ⟨block, form, opened⟩
  · refine .inl ⟨scopeAround state.resolution.arena target.body.label scope, ?_⟩
    have rescoped : Rescoped target.body _ state.resolution _ :=
      rescoped_wrapScope lexical.linked (get?_lt found)
    simp only [wrapperScope, bare, placed, Option.getD_some]
    rcases scopeAround_cases state.resolution.arena target.body.label scope with same | parent
    · rw [same] at rescoped ⊢
      exact ⟨own, trivial, found, suffix, rescoped, rfl⟩
    · obtain ⟨around, foundAround⟩ := get?_of_lt (lexical.linked.parent_lt parent)
      have outer := lexical.nested scope own _ around found
        ((parentOf_of_get? found).symm.trans parent) foundAround
      exact ⟨around, trivial, foundAround, outer.trans suffix, rescoped, rfl⟩
  · refine .inr ⟨scope, own, block, placed, found, ?_, form, by simp only [wrapperScope, block]⟩
    have same : own.owner.node.id = target.body.label.node.id := by
      simpa [opens, found] using opened
    exact regular.eq_of_id (lexical.owners scope own found) member same

theorem lexical_wrapperScope {state : Wrapping} {target : Target} (regular : Regular outline)
    (lexical : Resolution.Lexical outline state.resolution) (inside : loop ∈ outline.subtrees)
    (fits : state.target? loop = some target) :
    Resolution.Lexical outline (wrapperScope state.resolution target).1 := by
  obtain ⟨bodied, -⟩ := target?_eq_some fits
  rcases wrapperScope_cases regular lexical inside fits with
    ⟨prior, around, -, found, outside, rescoped, -⟩ | ⟨scope, own, -, -, -, -, -, wrapped⟩
  · exact rescoped.lexical regular lexical inside bodied found outside
  · rw [wrapped]
    exact lexical.framed (.modify _ _ fun _ => ⟨rfl, rfl, rfl⟩) rfl

theorem Step.lexical {state next : Wrapping} (regular : Regular outline)
    (lexical : Resolution.Lexical outline state.resolution) (step : Step outline state next) :
    Resolution.Lexical outline next.resolution := by
  cases step with
  | wrap ref inside unwrapped fits =>
      exact (lexical_wrapperScope regular lexical inside fits).framed
        (framed_declareParam _ _ _) rfl

namespace Session

/-- Whatever a session is asked to do, the scopes form a lexical tree, and searches from a scope
follow the way from there to the first scope. -/
theorem lexical_serveAll {source : List Char} {program : Program}
    (parsed : Program.ofText source = .ok program) {requests : List Request}
    (about : ∀ request ∈ requests, request.About (ofProgram program)) :
    let resolution :=
      ((start (.ofOutline source (ofProgram program))).serveAll requests).program.resolution
    let arena := resolution.arena
    resolution.Lexical (ofProgram program) ∧
      ∀ id < arena.size, ∃ ids, arena.chain (some id) = ⟨ids, false⟩ ∧ ids.Nodup ∧
        ids.head? = some id ∧ ids.getLast? = some 0 ∧ arena.closestHoist id ∈ ids ∧
        ∀ name holder, arena.lookup id name = some holder →
          holder ∈ ids ∧ arena.declares holder name = true := by
  intro resolution arena
  have regular := regular_of_ofText parsed
  have lexical : resolution.Lexical (ofProgram program) := by
    refine serveAll_induction
      (motive := fun state => Resolution.Lexical (ofProgram program) state.resolution) ?_ ?_ rfl
      (Resolution.lexical_ofOutline program) about
    · intro state next same lexical step
      exact step.lexical regular lexical
    · intro state insertions lexical
      exact lexical
  refine ⟨lexical, fun id bound => ?_⟩
  obtain ⟨ids, way⟩ := lexical.ways id bound
  refine ⟨ids, way.climb_eq way.length_le, way.nodup, ?_, lexical.way_last way,
    way.closestHoist_mem, fun name holder => way.lookup_mem⟩
  obtain ⟨rest, rfl⟩ := way.head
  rfl

/-- The requests to wrap every loop of a program, the outer ones first. -/
def everyLoop (outline : Outline) : List Request :=
  .configure .standard none :: outline.subtrees.map fun loop => .wrap loop loop.label.node

/-- Two loops without braces, and a function in a handler, after all loops have been wrapped. -/
theorem lexical_serveAll_everyLoop : ∃ program,
    Program.ofText "while (a) for (const x of xs) try {} catch (e) { f(() => x); }".toList =
      .ok program ∧
    let resolution := ((start (.ofOutline
      "while (a) for (const x of xs) try {} catch (e) { f(() => x); }".toList
      (ofProgram program))).serveAll (everyLoop (ofProgram program))).program.resolution
    resolution.arena.size = 8 ∧ resolution.Lexical (ofProgram program) := by
  have checked : ((Program.ofText
        "while (a) for (const x of xs) try {} catch (e) { f(() => x); }".toList).toOption.any
        fun program =>
        ((start (.ofOutline
          "while (a) for (const x of xs) try {} catch (e) { f(() => x); }".toList
          (ofProgram program))).serveAll
            (everyLoop (ofProgram program))).program.resolution.arena.size == 8) = true := by
    decide +kernel
  generalize String.toList _ = source at checked ⊢
  obtain ⟨program, parsed, checked⟩ := Program.exists_of_any checked
  refine ⟨program, parsed, beq_iff_eq.mp checked, (lexical_serveAll parsed ?_).1⟩
  intro request member
  rcases List.mem_cons.mp member with rfl | wraps
  · trivial
  · obtain ⟨loop, inside, rfl⟩ := List.mem_map.mp wraps
    exact inside

end Session

end Wrapping

end LoopCapture
