import LoopCapture.Proofs.Wrapping.Evolution

/-!
# What the pass decides

A capture can be told from the tree and from what names refer to before the pass: the variable is
block scoped, the nearest loop or function at its scope is a loop, and a function lies between the
scope and the reference. A run wraps the loops of the captures that can be helped, and complains
about the other ones as long as their loops have not been wrapped. Scopes change meanwhile, but a
function between two scopes is always one between the nodes that they belong to.
-/

set_option autoImplicit false

namespace LoopCapture

open Arena Outline Relation

/-! ## Specification -/

/-- The capture that a site is, judged by the nodes above it. -/
def Resolution.capture? (resolution : Resolution) (site : Site) : Option Wrapping.Capture := do
  guard site.node.isReference
  let name ← site.node.name?
  let declaringId ← resolution.declaredIn? site.node
  let declaring ← resolution.arena.get? declaringId
  let binding ← declaring.bindings.get? name
  guard binding.kind.isBlockScoped
  let loop ← declaring.owner.enclosingLoop?
  guard ((site.above.takeWhile (· != declaring.owner.node)).any Node.isFunction)
  return ⟨site.node, name, loop, binding.ident, declaring.owner.node.id == loop.id⟩

/-- The captures of a program in pre-order. -/
def Outline.captures (outline : Outline) (resolution : Resolution) : List Wrapping.Capture :=
  outline.sites.filterMap resolution.capture?

namespace Wrapping

namespace Capture

/-- Whether a capture asks for its loop to be wrapped, and the loop can be. -/
def wraps (outline : Outline) (mode : Mode) (capture : Capture) : Bool :=
  mode == .wrap && !(capture.loop.form = .loop .forLoop && capture.inHeader) &&
    ((outline.subtree? capture.loop.id).bind loopBody?).any (·.obstacle?.isNone)

/-- What is to be said of a capture that does not get its loop wrapped. -/
def complaint? (outline : Outline) (mode : Mode) (capture : Capture) : Option Diagnostic :=
  match mode with
  | .report => some (problem capture.ref "E-LOOP-CLOSURE"
      s!"can't transform closure: {capture.name} is defined outside closure, inside loop")
  | .wrap =>
    if capture.loop.form = .loop .forLoop && capture.inHeader then
      some (problem capture.declaration "E-UNSUPPORTED-SYNTAX"
        s!"{capture.name} is declared in for-loop header and then captured in loop closure")
    else
      (((outline.subtree? capture.loop.id).bind loopBody?).bind obstacle?).map fun obstacle =>
        problem capture.ref "E-UNSAFE-TRANSFORM" (obstacle.message capture.name)

end Capture

/-- The loops of the captures that wrap them, in the order of the first such captures. -/
def wrappedLoops (outline : Outline) (mode : Mode) (captures : List Capture) : List Nat :=
  ((captures.filter (·.wraps outline mode)).map (·.loop.id)).eraseDups

/-- The complaints about the captures whose loops earlier captures have not wrapped. -/
def complaints (outline : Outline) (mode : Mode) (captures : List Capture) : List Diagnostic :=
  captures.zipIdx.filterMap fun entry =>
    if entry.1.loop.id ∈ wrappedLoops outline mode (captures.take entry.2) then none
    else entry.1.complaint? outline mode

end Wrapping

/-! ## Functions between a scope and a reference -/

private theorem mem_takeWhile_ne {α : Type} [DecidableEq α] {xs before after : List α} {x stop : α}
    (distinct : xs.Nodup) (split : xs = before ++ x :: after) (later : stop ∈ after) :
    x ∈ xs.takeWhile (· != stop) := by
  subst split
  obtain ⟨-, rest, apart⟩ := List.nodup_append.mp distinct
  rw [List.takeWhile_append_of_pos]
  · have differs : x ≠ stop := fun same => (List.nodup_cons.mp rest).1 (same ▸ later)
    simp [differs]
  · intro other member
    have differs : other ≠ stop := apart other member stop (List.mem_cons_of_mem _ later)
    simpa using differs

private theorem exists_of_mem_takeWhile_ne {α : Type} [DecidableEq α] {xs after : List α}
    {x stop : α} (distinct : xs.Nodup) (suffix : stop :: after <:+ xs)
    (member : x ∈ xs.takeWhile (· != stop)) :
    ∃ rest, x :: rest <:+ xs ∧ stop :: after <:+ rest := by
  obtain ⟨before, rfl⟩ := suffix
  have absent : stop ∉ before := fun again =>
    (List.nodup_append.mp distinct).2.2 stop again stop List.mem_cons_self rfl
  have taken : (before ++ stop :: after).takeWhile (· != stop) = before := by
    rw [List.takeWhile_append_of_pos]
    · simp
    · intro other among
      have differs : other ≠ stop := fun same => absent (same ▸ among)
      simpa using differs
  rw [taken] at member
  obtain ⟨first, second, rfl⟩ := List.append_of_mem member
  exact ⟨second ++ stop :: after, ⟨first, by simp⟩, List.suffix_append _ _⟩

private theorem any_find?_iff {ids : List ScopeId} {outer : ScopeId} (member : outer ∈ ids)
    (test : ScopeId → Bool) : ((ids.find? fun id => id == outer || test id).any (· != outer)) = true ↔
      ∃ id ∈ ids.takeWhile (· != outer), test id = true := by
  induction ids with
  | nil => cases member
  | cons id ids ih =>
      by_cases here : id = outer
      · simp [here]
      · have later : outer ∈ ids := (List.mem_cons.mp member).resolve_left (Ne.symm here)
        cases passed : test id with
        | true => simp [here, passed]
        | false => simpa [here, passed] using ih later

/-- Numbers fall along a path, so no node is on it twice. -/
theorem Outline.Regular.nodup_path {outline : Outline} (regular : Regular outline) {site : Site}
    (member : site ∈ outline.sites) : site.path.Nodup := by
  have chained := regular.places site member
  generalize site.path = path at chained
  induction path with
  | nil => exact List.nodup_nil
  | cons node path ih =>
      refine List.nodup_cons.mpr ⟨fun again => ?_, ih chained.tail⟩
      exact Nat.lt_irrefl _ (loc_of_mem_path chained node again).2.2

section Crossing

variable {outline : Outline} {resolution : Resolution}

theorem Resolution.Lexical.way_suffix (lexical : Lexical outline resolution) {start : Option ScopeId}
    {ids : List ScopeId} (way : Way resolution.arena start ids) {id upper : ScopeId}
    {scope around : Scope} (begins : start = some id) (found : resolution.arena.get? id = some scope)
    (member : upper ∈ ids) (foundUpper : resolution.arena.get? upper = some around) :
    around.owner.path <:+ scope.owner.path := by
  induction way generalizing id scope with
  | outside => cases begins
  | @step other own ids foundOther rest ih =>
      obtain rfl := Option.some.inj begins
      rw [found] at foundOther
      obtain rfl := Option.some.inj foundOther
      rcases List.mem_cons.mp member with rfl | later
      · rw [found] at foundUpper
        obtain rfl := Option.some.inj foundUpper
        exact List.suffix_refl _
      · cases parent : scope.parent with
        | none =>
            rw [parent] at rest
            cases rest
            cases later
        | some outer =>
            rw [parent] at rest
            obtain ⟨next, foundNext⟩ := get?_of_lt rest.bound
            exact (ih parent foundNext later).trans
              (lexical.nested other scope outer next found parent foundNext)

/-- A walk up meets a function before a scope around it exactly if a scope that belongs to a
function lies on the way, inside the scope looked for. -/
theorem Wrapping.crossesFunction_iff (lexical : resolution.Lexical outline) {scope outer : ScopeId}
    {ids : List ScopeId} {around : Scope} (way : Way resolution.arena (some scope) ids)
    (member : outer ∈ ids) (found : resolution.arena.get? outer = some around)
    (plain : around.owner.node.isFunction = false) :
    crossesFunction resolution.arena scope outer = true ↔
      ∃ id ∈ ids, ∃ between, resolution.arena.get? id = some between ∧
        between.owner.node.isFunction = true ∧ around.owner.path <:+ between.owner.above := by
  obtain ⟨before, after, split⟩ := List.append_of_mem member
  have suffix : outer :: after <:+ ids := ⟨before, split.symm⟩
  unfold crossesFunction
  rw [way.ancestors_eq]
  refine (any_find?_iff member _).trans ⟨?_, ?_⟩
  · rintro ⟨id, inside, passed⟩
    obtain ⟨rest, start, beyond⟩ := exists_of_mem_takeWhile_ne way.nodup suffix inside
    have further := way.from_suffix start
    obtain ⟨between, foundBetween⟩ := get?_of_lt further.bound
    have function : between.owner.node.isFunction = true := by simpa [foundBetween] using passed
    have above := lexical.way_suffix further rfl foundBetween
      (List.mem_cons_of_mem _ (beyond.subset List.mem_cons_self)) found
    refine ⟨id, start.subset List.mem_cons_self, between, foundBetween, function, ?_⟩
    rcases List.suffix_cons_iff.mp above with same | strict
    · have equal : around.owner.node = between.owner.node := (List.cons.inj same).1
      rw [equal, function] at plain
      cases plain
    · exact strict
  · rintro ⟨id, among, between, foundBetween, function, above⟩
    refine ⟨id, ?_, by simpa [foundBetween] using function⟩
    rw [split, List.mem_append, List.mem_cons] at among
    rcases among with inner | same | outside
    · obtain ⟨first, second, rfl⟩ := List.append_of_mem inner
      have apart : ids = first ++ id :: (second ++ outer :: after) := by simp [split]
      exact mem_takeWhile_ne way.nodup apart (List.mem_append_right _ List.mem_cons_self)
    · rw [same, found] at foundBetween
      obtain rfl := Option.some.inj foundBetween
      rw [function] at plain
      cases plain
    · -- Scopes beyond the one looked for lie around it.
      have upper := lexical.way_suffix (way.from_suffix suffix) rfl found
        (List.mem_cons_of_mem _ outside) foundBetween
      have longer := (upper.trans above).length_le
      rw [Site.path, List.length_cons] at longer
      exact absurd longer (Nat.not_succ_le_self _)

/-- Judged by the path, a function lies between a node and a reference. -/
theorem Outline.Regular.any_takeWhile_iff (regular : Regular outline) {site : Site}
    (member : site ∈ outline.sites) {owner : Site} (above : owner.path <:+ site.above) :
    (site.above.takeWhile (· != owner.node)).any Node.isFunction = true ↔
      ∃ function rest, function.isFunction = true ∧ function :: rest <:+ site.above ∧
        owner.path <:+ rest := by
  have distinct : site.above.Nodup := (List.nodup_cons.mp (regular.nodup_path member)).2
  rw [List.any_eq_true]
  constructor
  · rintro ⟨function, inside, isFunction⟩
    obtain ⟨rest, suffix, beyond⟩ := exists_of_mem_takeWhile_ne distinct above inside
    exact ⟨function, rest, isFunction, suffix, beyond⟩
  · rintro ⟨function, rest, isFunction, ⟨before, split⟩, beyond⟩
    exact ⟨function, mem_takeWhile_ne distinct split.symm (beyond.subset List.mem_cons_self), isFunction⟩

end Crossing

/-! ## Before the pass -/

/-- What references rely on before the pass. -/
structure Resolution.Grounded (outline : Outline) (resolution : Resolution) : Prop where
  covered : ∀ site ∈ outline.sites, site.node.slot ≠ .functionName →
    ∃ id ids, resolution.scope? site.node = some id ∧ Way resolution.arena (some id) ids ∧
      Covers resolution.arena site.path ids ∧
      ∀ declaring, resolution.declaredIn? site.node = some declaring → declaring ∈ ids
  nameless : ∀ id scope, resolution.arena.get? id = some scope → scope.owner.node.name? = none

theorem Resolution.grounded_ofOutline (program : Program) :
    Grounded (ofProgram program) (ofOutline (ofProgram program)) := by
  have faithful := faithful_collect program
  constructor
  · intro site member unnamed
    obtain ⟨id, ids, place, way, covers⟩ := faithful.covered site member unnamed
    refine ⟨id, ids, place, way, covers, fun declaring found => ?_⟩
    rw [declaredIn?_of_mem member, declaringScope?, place] at found
    split at found
    · exact (way.lookup_mem found).1
    · cases found
  · intro id scope found
    obtain ⟨part, -, owns⟩ := faithful.owned id (get?_lt found)
    obtain ⟨same, foundToo, owner, -⟩ := owns.scope
    obtain rfl := Option.some.inj (foundToo.symm.trans found)
    rw [owner]
    unfold Node.name?
    split
    · rename_i name form
      rcases owns.opens with isProgram | opens
      · rw [form] at isProgram
        cases isProgram
      · simp [opening, form] at opens
    · rfl

/-- The scope of a captured variable belongs to no function. -/
theorem Site.isFunction_of_enclosingLoop? {site : Site} {loop : Node}
    (found : site.enclosingLoop? = some loop) : site.node.isFunction = false := by
  by_contra isFunction
  rw [Site.enclosingLoop?, Site.path, List.find?_cons_of_pos (by simp [isFunction])] at found
  have notLoop : site.node.isLoop = false := by
    unfold Node.isFunction at isFunction
    cases form : site.node.form with
    | function kind => simp [Node.isLoop, form, Form.isLoop]
    | _ => simp [form, Form.isFunction] at isFunction
  simp [Option.filter, notLoop] at found

theorem Resolution.capture?_eq_some {resolution : Resolution} {site : Site}
    {capture : Wrapping.Capture} :
    resolution.capture? site = some capture ↔ ∃ declaringId declaring binding,
      Wrapping.Refers resolution site.node declaringId declaring binding capture ∧
      (site.above.takeWhile (· != declaring.owner.node)).any Node.isFunction = true := by
  constructor
  · intro judged
    simp only [capture?, bind, ↓Wrapping.guard_bind, Option.ite_none_right_eq_some,
      Option.bind_eq_some_iff] at judged
    obtain ⟨reference, name, named, declaringId, declaredIn, declaring, found, binding, bound,
      lexical, loop, enclosing, crosses, made⟩ := judged
    obtain rfl := Option.some.inj made
    exact ⟨declaringId, declaring, binding,
      ⟨reference, named, declaredIn, found, bound, lexical, enclosing, rfl, rfl, rfl⟩, crosses⟩
  · rintro ⟨declaringId, declaring, binding, refers, crosses⟩
    simp only [capture?, bind, ↓Wrapping.guard_bind, refers.reference, refers.name,
      refers.declaredIn, Option.bind_some, refers.found, refers.bound, refers.lexical, refers.loop,
      crosses, if_true]
    obtain ⟨made, name, loop, declaration, inHeader⟩ := capture
    simp only [← refers.ref, ← refers.declaration, ← refers.inHeader]
    rfl

/-! ## Captures during the pass -/

namespace Wrapping

variable {outline : Outline} {start state : Wrapping} {site : Site} {capture : Capture}

/-- References of a program are no names of functions, and no scope belongs to one. -/
theorem slot_of_isReference {node : Node} (reference : node.isReference = true) :
    node.slot ≠ .functionName := by
  simp only [Node.isReference, Bool.and_eq_true, beq_iff_eq] at reference
  simp [reference.2]

/-- While the pass runs, a reference crosses a function exactly if it does so in the tree. -/
theorem Reached.crosses_iff (regular : Regular outline) (reached : Reached outline start state)
    (grounded : start.resolution.Grounded outline) (member : site ∈ outline.sites)
    {declaringId : ScopeId} {declaring : Scope} {binding : Binding}
    (refers : Refers start.resolution site.node declaringId declaring binding capture) :
    ∃ refScope, state.resolution.scope? site.node = some refScope ∧
      (crossesFunction state.resolution.arena refScope declaringId = true ↔
        (site.above.takeWhile (· != declaring.owner.node)).any Node.isFunction = true) := by
  have named : site.node.isFunction = false := by
    have name := refers.name
    unfold Node.name? at name
    cases form : site.node.form with
    | identifier _ => simp [Node.isFunction, form, Form.isFunction]
    | _ => simp [form] at name
  obtain ⟨id, ids, place, way, covers, among⟩ :=
    grounded.covered site member (slot_of_isReference refers.reference)
  obtain ⟨refScope, currentIds, placeToo, wayToo, subset⟩ :=
    reached.evolves.longer site.node.id id ids place way
  have declared := among declaringId refers.declaredIn
  have plain := Site.isFunction_of_enclosingLoop? refers.loop
  -- The scope of the variable belongs to a node above the reference.
  have above : declaring.owner.path <:+ site.above := by
    obtain ⟨scope, found, suffix⟩ := covers.owner declared
    rw [refers.found] at found
    obtain rfl := Option.some.inj found
    rcases List.suffix_cons_iff.mp suffix with same | strict
    · have nameless := grounded.nameless declaringId declaring refers.found
      rw [show declaring.owner.node = site.node from (List.cons.inj same).1, refers.name] at nameless
      cases nameless
    · exact strict
  obtain ⟨current, foundCurrent, owner, -⟩ :=
    reached.evolves.extend declaringId declaring refers.found
  refine ⟨refScope, placeToo, ?_⟩
  rw [crossesFunction_iff reached.lexical wayToo (subset declared) foundCurrent (owner ▸ plain),
    regular.any_takeWhile_iff member above, owner]
  constructor
  · rintro ⟨between, inside, scope, found, isFunction, beyond⟩
    obtain ⟨own, foundOwn⟩ := get?_of_lt wayToo.bound
    obtain ⟨refScopeToo, ownToo, samePlace, foundToo, outer⟩ := reached.lexical.placed site member
      (slot_of_isReference refers.reference)
    have same : refScope = refScopeToo := Option.some.inj (placeToo.symm.trans samePlace)
    subst same
    rw [foundOwn] at foundToo
    obtain rfl := Option.some.inj foundToo
    have suffix := (reached.lexical.way_suffix wayToo rfl foundOwn inside found).trans outer
    refine ⟨scope.owner.node, scope.owner.above, isFunction, ?_, beyond⟩
    rcases List.suffix_cons_iff.mp suffix with equal | strict
    · rw [(List.cons.inj equal).1, named] at isFunction
      cases isFunction
    · exact strict
  · rintro ⟨function, rest, isFunction, suffix, beyond⟩
    obtain ⟨between, inside, scope, found, ownerBetween⟩ :=
      covers.function (suffix.trans (List.suffix_cons _ _)) isFunction
    obtain ⟨changed, foundChanged, ownerChanged, -⟩ := reached.evolves.extend between scope found
    refine ⟨between, subset inside, changed, foundChanged, ?_, ?_⟩
    · rw [ownerChanged, ownerBetween]
      exact isFunction
    · rw [ownerChanged, ownerBetween]
      exact beyond

/-- A reference that has not been sent elsewhere is a capture by the specification, unless its loop
has been wrapped. -/
theorem Reached.capture?_of_kept (regular : Regular outline) (reached : Reached outline start state)
    (grounded : start.resolution.Grounded outline) (member : site ∈ outline.sites)
    (kept : state.resolution.declaredIn? site.node = start.resolution.declaredIn? site.node) :
    state.capture? site.node = some capture ↔
      start.resolution.capture? site = some capture ∧ capture.loop.id ∉ state.wrapped := by
  rw [Wrapping.capture?_eq_some, Resolution.capture?_eq_some]
  constructor
  · rintro ⟨declaringId, current, binding, refScope, refers, placed, -, unwrapped, crosses⟩
    have declaredIn : start.resolution.declaredIn? site.node = some declaringId :=
      kept.symm.trans refers.declaredIn
    obtain ⟨id, ids, -, way, -, among⟩ :=
      grounded.covered site member (slot_of_isReference refers.reference)
    obtain ⟨declaring, found⟩ := get?_of_lt (way.lt_size declaringId (among _ declaredIn))
    obtain ⟨changed, foundChanged, owner, -⟩ := reached.evolves.extend declaringId declaring found
    obtain rfl := Option.some.inj (refers.found.symm.trans foundChanged)
    have bound := (reached.evolves.extend.blockScoped_iff found foundChanged refers.lexical).mp
      refers.bound
    have before : Refers start.resolution site.node declaringId declaring binding capture :=
      ⟨refers.reference, refers.name, declaredIn, found, bound, refers.lexical,
        owner ▸ refers.loop, refers.ref, refers.declaration, owner ▸ refers.inHeader⟩
    obtain ⟨refScopeToo, placedToo, equal⟩ := reached.crosses_iff regular grounded member before
    obtain rfl := Option.some.inj (placed.symm.trans placedToo)
    exact ⟨⟨declaringId, declaring, binding, before, equal.mp crosses⟩, unwrapped⟩
  · rintro ⟨⟨declaringId, declaring, binding, refers, between⟩, unwrapped⟩
    obtain ⟨refScope, placed, equal⟩ := reached.crosses_iff regular grounded member refers
    have crosses := equal.mpr between
    obtain ⟨changed, foundChanged, owner, -⟩ :=
      reached.evolves.extend declaringId declaring refers.found
    have bound := (reached.evolves.extend.blockScoped_iff refers.found foundChanged
      refers.lexical).mpr refers.bound
    refine ⟨declaringId, changed, binding, refScope,
      ⟨refers.reference, refers.name, kept.trans refers.declaredIn, foundChanged, bound,
        refers.lexical, owner ▸ refers.loop, refers.ref, refers.declaration, owner ▸ refers.inHeader⟩,
      placed, ?_, unwrapped, crosses⟩
    -- A walk that starts at the declaring scope meets no function before it.
    rintro rfl
    obtain ⟨ids, way⟩ := reached.lexical.ways declaringId (get?_lt foundChanged)
    obtain ⟨rest, rfl⟩ := way.head
    simp [crossesFunction, way.ancestors_eq] at crosses

/-- While the pass runs, all captures are captures by the specification. -/
theorem Reached.capture?_eq_some (regular : Regular outline) (reached : Reached outline start state)
    (grounded : start.resolution.Grounded outline) (member : site ∈ outline.sites)
    (judged : state.capture? site.node = some capture) :
    start.resolution.capture? site = some capture ∧ capture.loop.id ∉ state.wrapped := by
  rcases reached.declaredIn site.node with kept | ⟨id, moved, scope, found, settled⟩
  · exact (reached.capture?_of_kept regular grounded member kept).mp judged
  · exfalso
    obtain ⟨declaringId, declaring, binding, refScope, refers, -, -, unwrapped, -⟩ :=
      Wrapping.capture?_eq_some.mp judged
    obtain rfl := Option.some.inj (moved.symm.trans refers.declaredIn)
    obtain rfl := Option.some.inj (found.symm.trans refers.found)
    rcases settled with none | ⟨loop, enclosing, wrapped⟩
    · have plain := none _ _ refers.bound
      rw [refers.lexical] at plain
      cases plain
    · obtain rfl := Option.some.inj (enclosing.symm.trans refers.loop)
      exact unwrapped wrapped

/-! ## Verdicts -/

theorem loop_of_capture? {resolution : Resolution} (regular : Regular outline)
    (lexical : resolution.Lexical outline)
    (captured : resolution.capture? site = some capture) :
    ∃ loop ∈ outline.subtrees, outline.subtree? capture.loop.id = some loop ∧
      loop.label.node = capture.loop ∧ capture.loop.isLoop = true := by
  obtain ⟨declaringId, declaring, binding, refers, -⟩ := Resolution.capture?_eq_some.mp captured
  have enclosing := refers.loop
  rw [Site.enclosingLoop?, Option.filter_eq_some_iff] at enclosing
  obtain ⟨searched, isLoop⟩ := enclosing
  obtain ⟨below, above, split⟩ := List.append_of_mem (List.mem_of_find?_eq_some searched)
  have member : (⟨capture.loop, above⟩ : Site) ∈ outline.sites :=
    regular.mem_of_suffix (lexical.owners declaringId declaring refers.found) ⟨below, split.symm⟩
  let test (site : Site) : Bool := site.node.id == capture.loop.id
  have numbered : test ⟨capture.loop, above⟩ = true := beq_self_eq_true _
  obtain ⟨loop, found⟩ := Option.isSome_iff_exists.mp (Tree.isSome_find? numbered member)
  obtain ⟨inside, numbered⟩ := Tree.find?_eq_some found
  have same : loop.label = ⟨capture.loop, above⟩ :=
    regular.eq_of_id (label_mem_sites inside) member (beq_iff_eq.mp numbered)
  exact ⟨loop, inside, found, by rw [same], isLoop⟩

theorem verdict?_of_capture? (regular : Regular outline) (reached : Reached outline start state)
    (lexical : start.resolution.Lexical outline)
    (captured : start.resolution.capture? site = some capture) (mode : Mode) :
    ∃ loop ∈ outline.subtrees, ∃ target, state.target? loop = some target ∧
      loop.label.node = capture.loop ∧
      state.verdict? mode capture = some ((capture.complaint? outline mode).elim (.wrap target) .report) ∧
      capture.wraps outline mode = (capture.complaint? outline mode).isNone := by
  obtain ⟨loop, inside, found, same, isLoop⟩ := loop_of_capture? regular lexical captured
  obtain ⟨body, bodied⟩ := regular.bodies inside (same ▸ isLoop)
  obtain ⟨bodyInside, -, slot, -⟩ := regular.body inside bodied
  obtain ⟨scope, own, placed, -, -⟩ :=
    reached.lexical.placed body.label (label_mem_sites bodyInside) (by simp [slot])
  have fits := target?_of_placed bodied placed
  refine ⟨loop, inside, _, fits, same, ?_, ?_⟩
  · cases mode with
    | report => rfl
    | wrap =>
        simp only [verdict?, Capture.complaint?, reached.outline_eq]
        split
        · rfl
        · simp only [found, fits, bind, Option.bind_some, bodied]
          cases body.obstacle? <;> rfl
  · cases mode with
    | report => rfl
    | wrap =>
        simp only [Capture.wraps, Capture.complaint?, found, Option.bind_some, bodied]
        split
        · simp [*]
        · rename_i header
          simp [header]

/-! ## Runs -/

theorem mem_wrappedLoops {mode : Mode} {captures : List Capture} {id : Nat} :
    id ∈ wrappedLoops outline mode captures ↔
      ∃ capture ∈ captures, capture.wraps outline mode = true ∧ capture.loop.id = id := by
  simp [wrappedLoops, List.mem_eraseDups, and_assoc]

theorem wrappedLoops_concat (mode : Mode) (captures : List Capture) (capture : Capture) :
    wrappedLoops outline mode (captures ++ [capture]) =
      if capture.wraps outline mode = true ∧ capture.loop.id ∉ wrappedLoops outline mode captures then
        wrappedLoops outline mode captures ++ [capture.loop.id]
      else wrappedLoops outline mode captures := by
  simp only [wrappedLoops, List.filter_append, List.map_append, List.eraseDups_append,
    List.mem_eraseDups]
  cases wraps : capture.wraps outline mode with
  | false => simp [wraps]
  | true =>
      by_cases known : capture.loop.id ∈ (captures.filter (·.wraps outline mode)).map (·.loop.id)
      · simp [wraps, known, List.removeAll]
      · simp [wraps, known, List.removeAll, List.eraseDups_cons]

theorem complaints_concat (mode : Mode) (captures : List Capture) (capture : Capture) :
    complaints outline mode (captures ++ [capture]) = complaints outline mode captures ++
      if capture.loop.id ∈ wrappedLoops outline mode captures then []
      else (capture.complaint? outline mode).toList := by
  unfold complaints
  rw [List.zipIdx_append, List.filterMap_append]
  congr 1
  · apply List.filterMap_congr
    intro entry member
    have bound := List.snd_lt_of_mem_zipIdx member
    rw [List.take_append_of_le_length (by omega)]
  · rw [List.zipIdx_singleton, List.filterMap_cons, List.filterMap_nil, Nat.zero_add,
      List.take_left]
    by_cases known : capture.loop.id ∈ wrappedLoops outline mode captures
    · simp only [known, if_true]
    · simp only [known, if_false]
      cases capture.complaint? outline mode <;> rfl

/-- A run that has visited some sites. -/
structure Visited (outline : Outline) (mode : Mode) (start : Wrapping) (report : Report)
    (sites : List Site) (state : Wrapping × Report) : Prop where
  reached : Reached outline start state.1
  elsewhere : ∀ node : Node, node.id ∉ sites.map (·.node.id) →
    state.1.resolution.declaredIn? node = start.resolution.declaredIn? node
  wrapped : state.1.wrapped =
    wrappedLoops outline mode (sites.filterMap start.resolution.capture?)
  report : state.2 =
    (complaints outline mode (sites.filterMap start.resolution.capture?)).foldl .add report

theorem declaredIn?_wrap (state : Wrapping) (target : Target) {ref node : Node}
    (different : node.id ≠ ref.id) :
    (state.wrap target ref).1.resolution.declaredIn? node = state.resolution.declaredIn? node := by
  simp only [Resolution.declaredIn?, wrap, declaredIn_wrapperScope]
  rw [Array.getElem?_modify, if_neg (Ne.symm different)]

/-- What a visit does, by the specification. -/
theorem Reached.visit_cases (regular : Regular outline) (reached : Reached outline start state)
    (grounded : start.resolution.Grounded outline) (lexical : start.resolution.Lexical outline)
    (member : site ∈ outline.sites)
    (kept : state.resolution.declaredIn? site.node = start.resolution.declaredIn? site.node)
    (mode : Mode) (report : Report) :
    (visit mode (state, report) site.node = (state, report) ∧
      ∀ capture, start.resolution.capture? site = some capture → capture.loop.id ∈ state.wrapped) ∨
    ∃ capture, start.resolution.capture? site = some capture ∧ capture.loop.id ∉ state.wrapped ∧
      ((∃ diagnostic, capture.complaint? outline mode = some diagnostic ∧
        capture.wraps outline mode = false ∧
        visit mode (state, report) site.node = (state, report.add diagnostic)) ∨
      ∃ loop ∈ outline.subtrees, ∃ target, capture.complaint? outline mode = none ∧
        capture.wraps outline mode = true ∧ state.target? loop = some target ∧
        loop.label.node = capture.loop ∧
        visit mode (state, report) site.node = ((state.wrap target site.node).1, report)) := by
  cases judged : state.capture? site.node with
  | none =>
      refine .inl ⟨by simp only [visit, judged, Option.bind_none], fun capture specified => ?_⟩
      by_contra unwrapped
      have found := (reached.capture?_of_kept regular grounded member kept).mpr ⟨specified, unwrapped⟩
      rw [judged] at found
      cases found
  | some capture =>
      obtain ⟨specified, unwrapped⟩ :=
        (reached.capture?_of_kept regular grounded member kept).mp judged
      refine .inr ⟨capture, specified, unwrapped, ?_⟩
      obtain ⟨loop, inside, target, fits, same, decided, wraps⟩ :=
        verdict?_of_capture? regular reached lexical specified mode
      cases complained : capture.complaint? outline mode with
      | some diagnostic =>
          rw [complained] at decided wraps
          refine .inl ⟨diagnostic, rfl, wraps, ?_⟩
          simp only [visit, judged, decided, Option.bind_some, Option.map_some, Option.elim_some]
      | none =>
          rw [complained] at decided wraps
          obtain ⟨_, _, _, refers, -⟩ := Resolution.capture?_eq_some.mp specified
          refine .inr ⟨loop, inside, target, rfl, wraps, fits, same, ?_⟩
          simp only [visit, judged, decided, Option.bind_some, Option.map_some, Option.elim_none,
            refers.ref]

theorem Visited.visit {mode : Mode} {report : Report} {sites : List Site}
    {visited : Wrapping × Report} (regular : Regular outline)
    (grounded : start.resolution.Grounded outline) (lexical : start.resolution.Lexical outline)
    (known : Visited outline mode start report sites visited) (member : site ∈ outline.sites)
    (fresh : site.node.id ∉ sites.map (·.node.id)) :
    Visited outline mode start report (sites ++ [site]) (visit mode visited site.node) := by
  obtain ⟨state, told⟩ := visited
  have reached : Reached outline start state := known.reached
  have wrappedSame : state.wrapped = _ := known.wrapped
  have more (node : Node) (absent : node.id ∉ (sites ++ [site]).map (·.node.id)) :
      node.id ∉ sites.map (·.node.id) ∧ node.id ≠ site.node.id := by
    simpa [not_or] using absent
  have earlier (node : Node) (absent : node.id ∉ (sites ++ [site]).map (·.node.id)) :
      state.resolution.declaredIn? node = start.resolution.declaredIn? node :=
    known.elsewhere node (more node absent).1
  rcases reached.visit_cases regular grounded lexical member (known.elsewhere site.node fresh) mode
    told with ⟨visited, wrapped⟩ | ⟨capture, specified, unwrapped, outcome⟩
  · rw [visited]
    cases specified : start.resolution.capture? site with
    | none =>
        have captures : (sites ++ [site]).filterMap start.resolution.capture? =
          sites.filterMap start.resolution.capture? := by simp [specified]
        exact ⟨reached, earlier, captures ▸ known.wrapped, captures ▸ known.report⟩
    | some capture =>
        have captures : (sites ++ [site]).filterMap start.resolution.capture? =
          sites.filterMap start.resolution.capture? ++ [capture] := by simp [specified]
        have listed := wrapped capture specified
        rw [wrappedSame] at listed
        refine ⟨reached, earlier, ?_, ?_⟩
        · rw [captures, wrappedLoops_concat, if_neg (fun both => both.2 listed)]
          exact known.wrapped
        · rw [captures, complaints_concat, if_pos listed, List.append_nil]
          exact known.report
  · have captures : (sites ++ [site]).filterMap start.resolution.capture? =
      sites.filterMap start.resolution.capture? ++ [capture] := by simp [specified]
    have unlisted := unwrapped
    rw [wrappedSame] at unlisted
    rcases outcome with ⟨diagnostic, complained, wraps, visited⟩ |
      ⟨loop, inside, target, complained, wraps, fits, same, visited⟩
    · rw [visited]
      refine ⟨reached, earlier, ?_, ?_⟩
      · rw [captures, wrappedLoops_concat, if_neg (fun both => by simp [wraps] at both)]
        exact known.wrapped
      · rw [captures, complaints_concat, if_neg unlisted, complained, Option.toList_some,
          List.foldl_append, List.foldl_cons, List.foldl_nil, ← known.report]
    · rw [visited]
      refine ⟨reached.step regular (.wrap _ inside (same ▸ unwrapped) fits), ?_, ?_, ?_⟩
      · intro node absent
        rw [declaredIn?_wrap _ _ (more node absent).2]
        exact earlier node absent
      · obtain ⟨-, sameLoop, -⟩ := target?_eq_some fits
        rw [captures, wrappedLoops_concat, if_pos ⟨wraps, unlisted⟩, ← wrappedSame]
        simp [wrap, sameLoop, same]
      · rw [captures, complaints_concat, if_neg unlisted, complained, Option.toList_none,
          List.append_nil]
        exact known.report

/-- Visits in the order of the text. -/
theorem visited_foldl {mode : Mode} {report : Report} (regular : Regular outline)
    (grounded : start.resolution.Grounded outline) (lexical : start.resolution.Lexical outline)
    (same : start.outline = outline) (unwrapped : start.wrapped = []) {sites rest : List Site}
    (split : outline.sites = sites ++ rest) : Visited outline mode start report sites
      (sites.foldl (fun state site => visit mode state site.node) (start, report)) := by
  induction sites using List.reverseRecOn generalizing rest with
  | nil => exact ⟨.refl lexical same, fun _ _ => rfl, unwrapped, rfl⟩
  | append_singleton sites site ih =>
      rw [List.append_assoc] at split
      have known := ih split
      rw [List.foldl_append, List.foldl_cons, List.foldl_nil]
      refine known.visit regular grounded lexical (split ▸ by simp) ?_
      have distinct : (outline.sites.map (·.node.id)).Nodup := regular.numbered ▸ List.nodup_range
      rw [split, List.map_append, List.nodup_append] at distinct
      exact fun again => distinct.2.2 _ again _ List.mem_cons_self rfl

theorem visited_run {source : List Char} {program : Program}
    (parsed : Program.ofText source = .ok program) (mode : Mode) (report : Report) :
    Visited (ofProgram program) mode (ofOutline source (ofProgram program)) report
      (ofProgram program).sites (run mode (ofOutline source (ofProgram program), report)) :=
  visited_foldl (regular_of_ofText parsed) (Resolution.grounded_ofOutline program)
    (Resolution.lexical_ofOutline program) rfl rfl (List.append_nil _).symm

/-- A capture of a program wraps its loop or is complained about. -/
theorem wraps_iff {source : List Char} {program : Program}
    (parsed : Program.ofText source = .ok program) (mode : Mode) {capture : Capture}
    (member : capture ∈ (ofProgram program).captures (.ofOutline (ofProgram program))) :
    capture.wraps (ofProgram program) mode = true ↔
      capture.complaint? (ofProgram program) mode = none := by
  obtain ⟨site, -, specified⟩ := List.mem_filterMap.mp member
  have regular := regular_of_ofText parsed
  have lexical := Resolution.lexical_ofOutline program
  have reached : Reached (ofProgram program) (ofOutline source (ofProgram program)) _ :=
    .refl lexical rfl
  obtain ⟨-, -, -, -, -, -, wraps⟩ := verdict?_of_capture? regular reached lexical specified mode
  rw [wraps, Option.isNone_iff_eq_none]

/-- A run over a program wraps the loops of the captures that can be helped, each once and in the
order of the first such captures, and complains about the captures that come too early for that. -/
theorem run_captures {source : List Char} {program : Program}
    (parsed : Program.ofText source = .ok program) (mode : Mode) (report : Report) :
    let outline := ofProgram program
    let start := ofOutline source outline
    let captures := outline.captures start.resolution
    let final := run mode (start, report)
    final.1.wrapped = wrappedLoops outline mode captures ∧
      final.2 = (complaints outline mode captures).foldl .add report ∧
      ∀ capture ∈ captures,
        capture.wraps outline mode = true ↔ capture.complaint? outline mode = none := by
  have visited := visited_run parsed mode report
  exact ⟨visited.wrapped, visited.report, fun _ member => wraps_iff parsed mode member⟩

/-- The second loop is wrapped for its second capture, which comes too late for the first one and
in time for the third. -/
theorem run_captures_headers : ∃ program,
    Program.ofText ("for (const x of xs) f(() => x); " ++
      "for (let i = 0; i < 9; i++) { let j = i; f(() => i, () => j, () => i); }").toList =
        .ok program ∧
    let outline := ofProgram program
    let captures := outline.captures (.ofOutline outline)
    let final := run .wrap (ofOutline ("for (const x of xs) f(() => x); " ++
      "for (let i = 0; i < 9; i++) { let j = i; f(() => i, () => j, () => i); }").toList outline,
        .empty none)
    captures.map (·.name) = ["x", "i", "j", "i"] ∧
      (complaints outline .wrap captures).map (·.code) = [some "E-UNSUPPORTED-SYNTAX"] ∧
      final.1.wrapped = wrappedLoops outline .wrap captures ∧
      final.2 = (complaints outline .wrap captures).foldl .add (.empty none) := by
  have checked : ((Program.ofText ("for (const x of xs) f(() => x); " ++
        "for (let i = 0; i < 9; i++) { let j = i; f(() => i, () => j, () => i); }").toList).toOption.any
        fun program =>
        let outline := ofProgram program
        let captures := outline.captures (.ofOutline outline)
        captures.map (·.name) == ["x", "i", "j", "i"] &&
          (complaints outline .wrap captures).map (·.code) ==
            [some "E-UNSUPPORTED-SYNTAX"]) = true := by
    decide +kernel
  generalize String.toList _ = source at checked ⊢
  obtain ⟨program, parsed, checked⟩ := Program.exists_of_any checked
  simp only [Bool.and_eq_true, beq_iff_eq] at checked
  obtain ⟨wrapped, told, -⟩ := run_captures parsed .wrap (.empty none)
  exact ⟨program, parsed, checked.1, checked.2, wrapped, told⟩

end Wrapping

end LoopCapture
