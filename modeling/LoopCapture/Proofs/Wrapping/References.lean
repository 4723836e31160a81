import LoopCapture.Proofs.Wrapping.Captures

/-!
# Where references point after the pass

A reference points to a scope on the way up from its own scope, and that scope declares its name.
The pass keeps this up for all references but those for which it wraps a loop. Such a reference
comes to point to the scope of the function around the body of the loop, whether or not it stands
in the body, and whether or not the variable is one of that scope.
-/

set_option autoImplicit false

namespace LoopCapture

open Arena Outline Relation

/-! ## Scopes around a node -/

/-- All scopes that belong to a node or to nodes above it lie on the way from its scope. -/
def Resolution.Complete (outline : Outline) (resolution : Resolution) : Prop :=
  ∀ site ∈ outline.sites, site.node.slot ≠ .functionName → ∀ id scope,
    resolution.arena.get? id = some scope → scope.owner.path <:+ site.path →
      ∃ first ids, resolution.scope? site.node = some first ∧
        Way resolution.arena (some first) ids ∧ id ∈ ids

theorem Arena.Way.exists_child {arena : Arena} {first upper : ScopeId} {ids : List ScopeId}
    (way : Way arena (some first) ids) (member : upper ∈ ids) (different : first ≠ upper) :
    ∃ child ∈ ids, arena.parentOf child = some upper := by
  obtain ⟨start, same⟩ : ∃ start, start = some first := ⟨_, rfl⟩
  rw [← same] at way
  induction way generalizing first with
  | outside => cases same
  | @step id scope ids found rest ih =>
      obtain rfl := Option.some.inj same
      have later : upper ∈ ids := (List.mem_cons.mp member).resolve_left (Ne.symm different)
      cases parent : scope.parent with
      | none =>
          rw [parent] at rest
          cases rest
          cases later
      | some outer =>
          by_cases here : outer = upper
          · refine ⟨id, List.mem_cons_self, ?_⟩
            rw [parentOf_of_get? found, parent, here]
          · obtain ⟨child, among, known⟩ := ih later here parent
            exact ⟨child, List.mem_cons_of_mem _ among, known⟩

theorem Arena.Way.parentOf_ne {arena : Arena} {first child : ScopeId} {ids : List ScopeId}
    (way : Way arena (some first) ids) (member : child ∈ ids) :
    arena.parentOf child ≠ some first := by
  intro inner
  obtain ⟨before, after, rfl⟩ := List.append_of_mem member
  have further := way.from_suffix (List.suffix_append before (child :: after))
  have parent := further.parent
  rw [inner] at parent
  obtain ⟨rest, rfl⟩ := parent.head
  obtain ⟨others, same⟩ := way.head
  have once := way.nodup
  cases before with
  | nil =>
      obtain ⟨rfl, -⟩ := List.cons.inj same
      simp at once
  | cons other before =>
      obtain ⟨rfl, -⟩ := List.cons.inj same
      simp at once

theorem Arena.Extends.declares {before after : Arena} (extend : Extends before after) {id : ScopeId}
    {name : String} (declared : before.declares id name = true) : after.declares id name = true := by
  obtain ⟨binding, known⟩ := declares_iff.mp declared
  obtain ⟨scope, found, bound⟩ := Option.bind_eq_some_iff.mp known
  obtain ⟨changed, foundChanged, -, names⟩ := extend id scope found
  refine declares_iff.mpr ⟨binding, ?_⟩
  rw [binding?_of_get? foundChanged]
  rcases names name with same | ⟨absent, -⟩
  · exact same.trans bound
  · rw [bound] at absent
    cases absent

theorem Arena.mem_detour {moved ids : List ScopeId} {new child : ScopeId} (member : child ∈ ids)
    (moves : child ∈ moved) : new ∈ detour moved new ids := by
  induction ids with
  | nil => cases member
  | cons first ids ih =>
      unfold detour
      split
      · simp
      · rename_i stays
        rcases List.mem_cons.mp member with rfl | later
        · exact absurd moves stays
        · exact List.mem_cons_of_mem _ (ih later)

namespace Resolution

theorem complete_ofOutline {program : Program} (regular : Regular (ofProgram program)) :
    Complete (ofProgram program) (ofOutline (ofProgram program)) := by
  have faithful := faithful_collect program
  intro site member named id scope found suffix
  obtain ⟨part, inside, owns⟩ := faithful.owned id (get?_lt found)
  obtain ⟨same, foundToo, owner, -⟩ := owns.scope
  obtain rfl := Option.some.inj (foundToo.symm.trans found)
  obtain ⟨whole, wholeInside, rfl⟩ := exists_subtree member
  rw [owner] at suffix
  have below := regular.mem_subtrees_of_suffix inside wholeInside suffix
  rcases Tree.mem_preorder.mp (Tree.preorder_subset below (Tree.label_mem_preorder whole)) with
    here | ⟨child, among, within⟩
  · obtain ⟨ids, way, -⟩ := owns.covers
    obtain ⟨rest, rfl⟩ := way.head
    exact ⟨id, _, here ▸ owns.place, way, List.mem_cons_self⟩
  · exact owns.inside whole.label (Tree.mem_preorderAll.mpr ⟨child, among, within⟩) named

theorem Complete.framed {outline : Outline} {resolution changed : Resolution}
    (complete : Complete outline resolution) (framed : Framed resolution.arena changed.arena)
    (same : changed.scopeOf = resolution.scopeOf) : Complete outline changed := by
  intro site member named id scope found suffix
  obtain ⟨old, foundOld, owner, -⟩ := framed.of_get? found
  obtain ⟨first, ids, placed, way, among⟩ :=
    complete site member named id old foundOld (owner ▸ suffix)
  refine ⟨first, ids, ?_, framed.way way, among⟩
  rw [scope?, same]
  exact placed

end Resolution

namespace Wrapping

variable {outline loop body : Outline} {resolution : Resolution} {start state : Wrapping}
  {target : Target} {scope : ScopeId}

/-- The scope around a body is the innermost one that does not belong to the body. -/
theorem within_body (regular : Regular outline) (lexical : resolution.Lexical outline)
    (complete : resolution.Complete outline) (inside : loop ∈ outline.subtrees)
    (bodied : loop.loopBody? = some body)
    (placed : resolution.scope? body.label.node = some scope) {child : ScopeId} {inner : Scope}
    (found : resolution.arena.get? child = some inner)
    (parent : resolution.arena.parentOf child =
      some (scopeAround resolution.arena body.label scope)) {site : Site}
    (above : inner.owner.path <:+ site.path) (below : body.label.path <:+ site.path) :
    child ∈ scopesWithin resolution.arena body.label
      (scopeAround resolution.arena body.label scope) := by
  obtain ⟨bodyInside, -, slot, -⟩ := regular.body inside bodied
  have bodyMember := label_mem_sites bodyInside
  have deeper : body.label.path <:+ inner.owner.path := by
    rcases List.suffix_or_suffix_of_suffix above below with upper | lower
    · -- Of the scopes on the way from the body only its own lies in the scope around it.
      obtain ⟨first, ids, placedToo, way, among⟩ :=
        complete body.label bodyMember (by simp [slot]) child inner found upper
      obtain rfl := Option.some.inj (placed.symm.trans placedToo)
      by_cases opened : opens resolution.arena body.label scope = true
      · by_cases own : child = scope
        · subst own
          have same : inner.owner.node.id = body.label.node.id := by
            simpa [opens, found] using opened
          have equal := regular.eq_of_id (lexical.owners child inner found) bodyMember same
          exact equal ▸ List.suffix_refl _
        · obtain ⟨rest, rfl⟩ := way.head
          have later := (List.mem_cons.mp among).resolve_left own
          cases outer : resolution.arena.parentOf scope with
          | none =>
              rw [scopeAround, if_pos opened, outer] at parent
              exact absurd parent (way.parentOf_ne among)
          | some prior =>
              rw [scopeAround, if_pos opened, outer] at parent
              exact absurd parent ((outer ▸ way.parent).parentOf_ne later)
      · rw [scopeAround, if_neg opened] at parent
        exact absurd parent (way.parentOf_ne among)
    · exact lower
  refine List.mem_filter.mpr ⟨(lexical.linked.agree _ _).mpr parent, ?_⟩
  rw [found]
  exact regular.within_of_suffix (lexical.owners child inner found) deeper

theorem exists_around (lexical : resolution.Lexical outline)
    (placed : resolution.scope? body.label.node = some scope) (member : body.label ∈ outline.sites)
    (slot : body.label.node.slot = .loopBody) :
    ∃ around, resolution.arena.get? (scopeAround resolution.arena body.label scope) = some around ∧
      around.owner.path <:+ body.label.path := by
  obtain ⟨id, own, place, found, suffix⟩ := lexical.placed body.label member (by simp [slot])
  obtain rfl := Option.some.inj (placed.symm.trans place)
  rcases scopeAround_cases resolution.arena body.label scope with same | parent
  · exact ⟨own, by rw [same, found], suffix⟩
  · obtain ⟨around, foundAround⟩ := get?_of_lt (lexical.linked.parent_lt parent)
    have outer := lexical.nested scope own _ around found
      ((parentOf_of_get? found).symm.trans parent) foundAround
    exact ⟨around, foundAround, outer.trans suffix⟩

/-- The new scope of a body without braces lies around everything in the body. -/
theorem Rescoped.complete {after : Resolution} (regular : Regular outline)
    (lexical : resolution.Lexical outline) (complete : resolution.Complete outline)
    (inside : loop ∈ outline.subtrees) (bodied : loop.loopBody? = some body)
    (placed : resolution.scope? body.label.node = some scope)
    (rescoped : Rescoped body (scopeAround resolution.arena body.label scope) resolution after) :
    after.Complete outline := by
  intro site member named id current found suffix
  by_cases old : id < resolution.arena.size
  · obtain ⟨former, foundFormer⟩ := get?_of_lt old
    obtain ⟨changed, foundChanged, -, owner, -⟩ := rescoped.enclosed.kept id former foundFormer
    obtain rfl := Option.some.inj (foundChanged.symm.trans found)
    obtain ⟨first, ids, place, way, among⟩ :=
      complete site member named id former foundFormer (owner ▸ suffix)
    obtain ⟨next, nextIds, nextPlace, nextWay, subset⟩ :=
      rescoped.evolves.longer site.node.id first ids place way
    exact ⟨next, nextIds, nextPlace, nextWay, subset among⟩
  · obtain ⟨children, new⟩ := rescoped.enclosed.new
    obtain rfl : id = resolution.arena.size := by
      have bound := get?_lt found
      rw [rescoped.enclosed.size] at bound
      exact Nat.le_antisymm (Nat.le_of_lt_succ bound) (Nat.le_of_not_lt old)
    rw [new] at found
    obtain rfl := Option.some.inj found
    have bodyInside := (regular.body inside bodied).1
    obtain ⟨prior, foundPrior, outside⟩ := exists_around lexical placed
      (label_mem_sites bodyInside) (regular.body inside bodied).2.2.1
    obtain ⟨first, ids, place, way, among⟩ :=
      complete site member named _ prior foundPrior (outside.trans suffix)
    have moved := rescoped.scopeOf site.node.id first place
    by_cases here : first = scopeAround resolution.arena body.label scope
    · have numbered : site.node.id ∈ body.sites.map (·.node.id) := by
        obtain ⟨whole, wholeInside, rfl⟩ := exists_subtree member
        have below := regular.mem_subtrees_of_suffix bodyInside wholeInside suffix
        exact List.mem_map_of_mem (Tree.preorder_subset below (Tree.label_mem_preorder whole))
      rw [if_pos ⟨numbered, here⟩] at moved
      exact ⟨_, _, moved, rescoped.enclosed.way_new (here ▸ way), List.mem_cons_self⟩
    · rw [if_neg fun both => here both.2] at moved
      obtain ⟨child, onWay, parent⟩ := way.exists_child among here
      obtain ⟨inner, foundInner⟩ := get?_of_lt (way.lt_size child onWay)
      obtain ⟨own, foundOwn⟩ := get?_of_lt way.bound
      have above : inner.owner.path <:+ site.path := by
        obtain ⟨firstToo, ownToo, placeToo, foundToo, upper⟩ := lexical.placed site member named
        obtain rfl := Option.some.inj (place.symm.trans placeToo)
        exact (lexical.way_suffix way rfl foundToo onWay foundInner).trans upper
      have within := within_body regular lexical complete inside bodied placed foundInner parent
        above suffix
      exact ⟨_, _, moved, rescoped.enclosed.way way, mem_detour onWay within⟩

theorem Step.complete {next : Wrapping} (regular : Regular outline)
    (lexical : state.resolution.Lexical outline) (complete : state.resolution.Complete outline)
    (step : Step outline state next) : next.resolution.Complete outline := by
  cases step with
  | @wrap loop target ref inside unwrapped fits =>
      have rescoped : (wrapperScope state.resolution target).1.Complete outline := by
        obtain ⟨bodied, -, scope, placed, bare | ⟨block, -, -⟩⟩ := target?_eq_some fits
        · simp only [wrapperScope, bare, placed, Option.getD_some]
          obtain ⟨bodyInside, -, slot, -⟩ := regular.body inside bodied
          obtain ⟨id, own, place, found, -⟩ := lexical.placed target.body.label
            (label_mem_sites bodyInside) (by simp [slot])
          obtain rfl := Option.some.inj (placed.symm.trans place)
          exact (rescoped_wrapScope lexical.linked (get?_lt found)).complete regular lexical complete
            inside bodied placed
        · simp only [wrapperScope, block]
          exact complete.framed (.modify _ _ fun _ => ⟨rfl, rfl, rfl⟩) rfl
      exact rescoped.framed (framed_declareParam _ _ _) rfl

/-! ## Names of the function around a body -/

/-- The names that the function around a body declares: those of the braces of the body, if it has
some, and the parameter. -/
def Target.declares (target : Target) (arena : Arena) (name : String) : Bool :=
  target.bodyScope.any (arena.declares · name) ||
    target.param.any fun ident => ident.name?.getD "" == name

theorem declares_declareParam_self {arena : Arena} {wrapper : ScopeId} {scope : Scope}
    (found : arena.get? wrapper = some scope) (param : Option Node) (name : String) :
    (declareParam arena wrapper param).declares wrapper name =
      (arena.declares wrapper name || param.any fun ident => ident.name?.getD "" == name) := by
  cases param with
  | none => simp [declareParam]
  | some ident =>
      unfold declareParam
      dsimp only
      split
      · rename_i known
        by_cases same : ident.name?.getD "" = name
        · rw [← same, known]
          rfl
        · simp [same]
      · rw [Bool.eq_iff_iff, Bool.or_eq_true, declares_iff, declares_iff, binding?, declare,
          get?_modify, if_pos rfl, found, binding?, found]
        simp only [Option.map_some, Option.bind_some, Entries.get?_put, Option.any_some, beq_iff_eq]
        by_cases same : name = ident.name?.getD ""
        · simp [same]
        · simp [same, Ne.symm same]

theorem declares_wrap (regular : Regular outline)
    (lexical : state.resolution.Lexical outline) (inside : loop ∈ outline.subtrees)
    (fits : state.target? loop = some target) (ref : Node) (id : ScopeId) (name : String) :
    (state.wrap target ref).1.resolution.arena.declares id name =
      if id = (state.wrap target ref).2 then target.declares state.resolution.arena name
      else state.resolution.arena.declares id name := by
  have parameter (id : ScopeId) (scope : Scope)
      (found : (wrapperScope state.resolution target).1.arena.get?
        (wrapperScope state.resolution target).2 = some scope) :
      (state.wrap target ref).1.resolution.arena.declares id name =
        if id = (state.wrap target ref).2 then
          (wrapperScope state.resolution target).1.arena.declares
              (wrapperScope state.resolution target).2 name ||
            target.param.any fun ident => ident.name?.getD "" == name
        else (wrapperScope state.resolution target).1.arena.declares id name := by
    by_cases here : id = (state.wrap target ref).2
    · rw [if_pos here, here]
      exact declares_declareParam_self found target.param name
    · rw [if_neg here]
      exact declares_declareParam here target.param name
  rcases wrapperScope_cases regular lexical inside fits with
    ⟨prior, around, bare, -, -, rescoped, wrapper⟩ | ⟨scope, own, braced, -, found, -, -, wrapped⟩
  · obtain ⟨children, new⟩ := rescoped.enclosed.new
    have kept (other : ScopeId) : (wrapperScope state.resolution target).1.arena.declares other name =
        state.resolution.arena.declares other name := by
      rw [Bool.eq_iff_iff, declares_iff, declares_iff, rescoped.enclosed.binding?_eq]
    rw [parameter id _ (wrapper ▸ new), kept, kept, wrapper, Target.declares, bare, Arena.declares,
      get?_of_not_lt (Nat.lt_irrefl _)]
    rfl
  · have kept (other : ScopeId) : (wrapperScope state.resolution target).1.arena.declares other name =
        state.resolution.arena.declares other name := by
      rw [wrapped]
      dsimp only
      rw [setKind, Arena.declares, Arena.declares, get?_modify]
      split
      · cases state.resolution.arena.get? other <;> rfl
      · rfl
    have hoisted : (wrapperScope state.resolution target).1.arena.get?
        (wrapperScope state.resolution target).2 = some { own with kind := .hoist } := by
      rw [wrapped]
      dsimp only
      rw [setKind, get?_modify, if_pos rfl, found]
      rfl
    rw [parameter id _ hoisted, kept, kept, Target.declares, braced]
    simp only [wrapped, Option.any_some]

/-! ## Redirected references -/

/-- A reference points to the function around the body of a loop, which has been wrapped for its
sake. -/
structure Redirected (outline : Outline) (start state : Wrapping) (site : Site) (loop : Outline)
    (target : Target) (id : ScopeId) : Prop where
  inside : loop ∈ outline.subtrees
  wrapped : loop.label.node.id ∈ state.wrapped
  fits : start.target? loop = some target
  captured : ∃ capture, start.resolution.capture? site = some capture ∧
    capture.loop = loop.label.node
  declaredIn : state.resolution.declaredIn? site.node = some id
  owner : ∃ scope, state.resolution.arena.get? id = some scope ∧ scope.owner = target.body.label
  names : ∀ name, state.resolution.arena.declares id name =
    target.declares start.resolution.arena name

/-- What a run keeps track of. -/
structure Tracked (outline : Outline) (start state : Wrapping) : Prop where
  complete : state.resolution.Complete outline
  names : ∀ id, (∀ name, state.resolution.arena.declares id name =
      start.resolution.arena.declares id name) ∨
    ∃ loop : Outline, loop ∈ outline.subtrees ∧ loop.label.node.id ∈ state.wrapped ∧
      ∃ body scope, loop.loopBody? = some body ∧ state.resolution.arena.get? id = some scope ∧
        scope.owner = body.label
  references : ∀ site ∈ outline.sites,
    state.resolution.declaredIn? site.node = start.resolution.declaredIn? site.node ∨
      ∃ loop target id, Redirected outline start state site loop target id

/-- Scopes that belong to the bodies of different loops are different. -/
theorem loop_eq_of_body (regular : Regular outline) {other otherBody : Outline}
    (inside : loop ∈ outline.subtrees) (otherInside : other ∈ outline.subtrees)
    (bodied : loop.loopBody? = some body) (otherBodied : other.loopBody? = some otherBody)
    (same : body.label = otherBody.label) : loop.label.node.id = other.label.node.id := by
  by_contra different
  exact body_id_ne regular inside otherInside bodied otherBodied different
    (congrArg (·.node.id) same)

/-- The function around a body gets the names that it would have got at the start. -/
theorem Tracked.declares_eq (regular : Regular outline) (reached : Reached outline start state)
    (tracked : Tracked outline start state) (inside : loop ∈ outline.subtrees)
    (unwrapped : loop.label.node.id ∉ state.wrapped) (fits : state.target? loop = some target)
    (name : String) : target.declares state.resolution.arena name =
      target.declares start.resolution.arena name := by
  unfold Target.declares
  rcases wrapperScope_cases regular reached.lexical inside fits with
    ⟨prior, around, bare, -⟩ | ⟨scope, own, braced, -, found, owner, -⟩
  · simp [bare]
  · rw [braced, Option.any_some, Option.any_some]
    rcases tracked.names scope with same | ⟨other, otherInside, wrapped, body, known, bodied,
      foundKnown, ownerKnown⟩
    · rw [same]
    · exfalso
      obtain rfl := Option.some.inj (found.symm.trans foundKnown)
      have equal := loop_eq_of_body regular inside otherInside (target?_eq_some fits).1 bodied
        (owner.symm.trans ownerKnown)
      exact unwrapped (equal ▸ wrapped)

theorem Tracked.wrap (regular : Regular outline) (reached : Reached outline start state)
    (tracked : Tracked outline start state) {site : Site} (member : site ∈ outline.sites)
    {capture : Capture} (captured : start.resolution.capture? site = some capture)
    (inside : loop ∈ outline.subtrees) (ofCapture : capture.loop = loop.label.node)
    (unwrapped : loop.label.node.id ∉ state.wrapped) (fits : state.target? loop = some target)
    (kept : state.resolution.declaredIn? site.node = start.resolution.declaredIn? site.node) :
    Tracked outline start (state.wrap target site.node).1 := by
  have lexical := reached.lexical
  have step : Step outline state (state.wrap target site.node).1 := .wrap _ inside unwrapped fits
  have extend := (step.evolves regular lexical).extend
  obtain ⟨bodied, ofLoop, -⟩ := target?_eq_some fits
  obtain ⟨wrapper, foundWrapper, ownerWrapper, -⟩ :=
    wrapper_get? regular lexical inside fits site.node
  have listed : loop.label.node.id ∈ (state.wrap target site.node).1.wrapped := by
    simp [Wrapping.wrap, ofLoop]
  refine ⟨step.complete regular lexical tracked.complete, fun id => ?_, fun other otherMember => ?_⟩
  · by_cases here : id = (state.wrap target site.node).2
    · exact .inr ⟨loop, inside, listed, target.body, wrapper, bodied, here ▸ foundWrapper,
        ownerWrapper⟩
    · rcases tracked.names id with same | ⟨other, otherInside, wrapped, body, scope, otherBodied,
        found, owner⟩
      · refine .inl fun name => ?_
        rw [declares_wrap regular lexical inside fits, if_neg here, same]
      · obtain ⟨changed, foundChanged, ownerChanged, -⟩ := extend id scope found
        exact .inr ⟨other, otherInside, step.wrapped_subset wrapped, body, changed, otherBodied,
          foundChanged, ownerChanged.trans owner⟩
  · by_cases same : other.node.id = site.node.id
    · obtain rfl := regular.eq_of_id otherMember member same
      refine .inr ⟨loop, target, (state.wrap target other.node).2, inside, listed,
        reached.targets loop inside unwrapped ▸ fits, ⟨capture, captured, ofCapture⟩, ?_,
        ⟨wrapper, foundWrapper, ownerWrapper⟩, fun name => ?_⟩
      · obtain ⟨_, _, _, refers, -⟩ := Resolution.capture?_eq_some.mp captured
        have found := Option.join_eq_some_iff.mp (kept.trans refers.declaredIn)
        simp only [Resolution.declaredIn?, Wrapping.wrap, declaredIn_wrapperScope]
        rw [Array.getElem?_modify, if_pos rfl, found]
        rfl
      · rw [declares_wrap regular lexical inside fits, if_pos rfl]
        exact tracked.declares_eq regular reached inside unwrapped fits name
    · rcases tracked.references other otherMember with stays | ⟨former, formerTarget, id, known⟩
      · refine .inl ?_
        rw [declaredIn?_wrap _ _ same, stays]
      · obtain ⟨scope, found, owner⟩ := known.owner
        obtain ⟨changed, foundChanged, ownerChanged, -⟩ := extend id scope found
        obtain ⟨formerBodied, -⟩ := target?_eq_some known.fits
        refine .inr ⟨former, formerTarget, id, known.inside, step.wrapped_subset known.wrapped,
          known.fits, known.captured, (declaredIn?_wrap _ _ same).trans known.declaredIn,
          ⟨changed, foundChanged, ownerChanged.trans owner⟩, fun name => ?_⟩
        have elsewhere : id ≠ (state.wrap target site.node).2 := by
          rintro rfl
          obtain rfl := Option.some.inj (foundWrapper.symm.trans foundChanged)
          have equal := loop_eq_of_body regular inside known.inside bodied formerBodied
            (ownerWrapper.symm.trans (ownerChanged.trans owner))
          exact unwrapped (equal ▸ known.wrapped)
        rw [declares_wrap regular lexical inside fits, if_neg elsewhere, known.names]

theorem tracked_foldl {mode : Mode} {report : Report} (regular : Regular outline)
    (grounded : start.resolution.Grounded outline) (lexical : start.resolution.Lexical outline)
    (complete : start.resolution.Complete outline) (same : start.outline = outline)
    (unwrapped : start.wrapped = []) {sites rest : List Site}
    (split : outline.sites = sites ++ rest) : Tracked outline start
      (sites.foldl (fun state site => visit mode state site.node) (start, report)).1 := by
  induction sites using List.reverseRecOn generalizing rest with
  | nil => exact ⟨complete, fun _ => .inl fun _ => rfl, fun _ _ => .inl rfl⟩
  | append_singleton sites site ih =>
      rw [List.append_assoc] at split
      have tracked := ih split
      have visited : Visited outline mode start report sites _ :=
        visited_foldl regular grounded lexical same unwrapped split
      have member : site ∈ outline.sites := split ▸ by simp
      have fresh : site.node.id ∉ sites.map (·.node.id) := by
        have distinct : (outline.sites.map (·.node.id)).Nodup := regular.numbered ▸ List.nodup_range
        rw [split, List.map_append, List.nodup_append] at distinct
        exact fun again => distinct.2.2 _ again _ List.mem_cons_self rfl
      rw [List.foldl_append, List.foldl_cons, List.foldl_nil]
      generalize sites.foldl (fun state site => visit mode state site.node) (start, report) =
        before at tracked visited ⊢
      obtain ⟨state, told⟩ := before
      rcases visited.reached.visit_cases regular grounded lexical member
        (visited.elsewhere site.node fresh) mode told with
        ⟨unchanged, -⟩ | ⟨capture, captured, early, ⟨_, -, -, unchanged⟩ |
          ⟨loop, inside, target, -, -, fits, ofCapture, wrapped⟩⟩
      · rw [unchanged]
        exact tracked
      · rw [unchanged]
        exact tracked
      · rw [wrapped]
        exact tracked.wrap regular visited.reached member captured inside ofCapture.symm
          (ofCapture ▸ early) fits (visited.elsewhere site.node fresh)

end Wrapping

/-! ## The rule for references -/

namespace Resolution

/-- A scope lies on the way from the scope of a node and declares the name of the node. -/
def resolves (resolution : Resolution) (node : Node) (id : ScopeId) : Bool :=
  match resolution.scope? node, node.name? with
  | some scope, some name =>
    (resolution.arena.ancestors scope).contains id && resolution.arena.declares id name
  | _, _ => false

theorem resolves_iff {resolution : Resolution} {node : Node} {id first : ScopeId} {name : String}
    {ids : List ScopeId} (named : node.name? = some name)
    (placed : resolution.scope? node = some first) (way : Way resolution.arena (some first) ids) :
    resolution.resolves node id = true ↔
      id ∈ ids ∧ resolution.arena.declares id name = true := by
  simp [resolves, named, placed, way.ancestors_eq]

theorem not_resolves {resolution : Resolution} {node : Node} {id : ScopeId} {name : String}
    (named : node.name? = some name) (absent : resolution.arena.declares id name = false) :
    resolution.resolves node id = false := by
  unfold resolves
  rw [named]
  cases resolution.scope? node <;> simp [absent]

theorem exists_way_ofOutline {program : Program} {site : Site} {id : ScopeId}
    (member : site ∈ (ofProgram program).sites)
    (refers : (ofOutline (ofProgram program)).declaredIn? site.node = some id) :
    ∃ name first ids, site.node.name? = some name ∧ site.node.slot ≠ .functionName ∧
      (ofOutline (ofProgram program)).scope? site.node = some first ∧
      Way (ofOutline (ofProgram program)).arena (some first) ids ∧ id ∈ ids ∧
      (ofOutline (ofProgram program)).arena.declares id name = true := by
  rw [declaredIn?_of_mem member, declaringScope?] at refers
  split at refers
  · rename_i reference
    have unnamed := Wrapping.slot_of_isReference reference
    obtain ⟨name, named⟩ : ∃ name, site.node.name? = some name := by
      simp only [Node.isReference, Bool.and_eq_true] at reference
      exact Option.isSome_iff_exists.mp reference.1
    obtain ⟨first, ids, place, way, -⟩ := (faithful_collect program).covered site member unnamed
    rw [place, Option.bind_some, named, Option.getD_some] at refers
    obtain ⟨among, declared⟩ := way.lookup_mem refers
    exact ⟨name, first, ids, named, unnamed, place, way, among, declared⟩
  · cases refers

end Resolution

namespace Wrapping

variable {outline loop : Outline} {start state : Wrapping} {target : Target} {site : Site}
  {source : List Char} {program : Program}

theorem resolves_of_kept {id : ScopeId}
    (reached : Reached (ofProgram program) (ofOutline source (ofProgram program)) state)
    (member : site ∈ (ofProgram program).sites)
    (refers : (Resolution.ofOutline (ofProgram program)).declaredIn? site.node = some id) :
    state.resolution.resolves site.node id = true := by
  obtain ⟨name, first, ids, named, -, place, way, among, declared⟩ :=
    Resolution.exists_way_ofOutline member refers
  obtain ⟨current, currentIds, placeToo, wayToo, subset⟩ :=
    reached.evolves.longer site.node.id first ids place way
  refine (Resolution.resolves_iff named placeToo wayToo).mpr ⟨subset among, ?_⟩
  exact reached.evolves.extend.declares declared

/-- The function around a body lies around the references in the body, and no others. -/
theorem Redirected.mem_way_iff {id first : ScopeId} {ids : List ScopeId} (regular : Regular outline)
    (reached : Reached outline start state) (tracked : Tracked outline start state)
    (known : Redirected outline start state site loop target id) (member : site ∈ outline.sites)
    (reference : site.node.isReference = true)
    (placed : state.resolution.scope? site.node = some first)
    (way : Way state.resolution.arena (some first) ids) :
    id ∈ ids ↔ target.body.label.node ∈ site.above := by
  obtain ⟨scope, found, owner⟩ := known.owner
  obtain ⟨bodied, -⟩ := target?_eq_some known.fits
  obtain ⟨bodyInside, -, slot, -⟩ := regular.body known.inside bodied
  have unnamed := slot_of_isReference reference
  constructor
  · intro among
    obtain ⟨firstToo, own, place, foundFirst, outer⟩ := reached.lexical.placed site member unnamed
    obtain rfl := Option.some.inj (placed.symm.trans place)
    have suffix := (reached.lexical.way_suffix way rfl foundFirst among found).trans outer
    rw [owner] at suffix
    rcases List.suffix_cons_iff.mp suffix with same | strict
    · have plain : site.node.slot = .plain := by
        simp only [Node.isReference, Bool.and_eq_true, beq_iff_eq] at reference
        exact reference.2
      rw [← (List.cons.inj same).1, slot] at plain
      cases plain
    · exact strict.subset List.mem_cons_self
  · intro above
    have suffix := regular.suffix_of_mem member (label_mem_sites bodyInside)
      (List.mem_cons_of_mem _ above)
    obtain ⟨firstToo, others, place, otherWay, among⟩ :=
      tracked.complete site member unnamed id scope found (owner ▸ suffix)
    obtain rfl := Option.some.inj (placed.symm.trans place)
    exact way.unique otherWay ▸ among

/-- After the pass every reference that points to a scope points to the one that it pointed to
before, and obeys the rule; or a loop has been wrapped for its sake, and it obeys the rule exactly
if it stands in the body of the loop and the function around the body declares its name. -/
theorem run_references (parsed : Program.ofText source = .ok program) (mode : Mode)
    (report : Report) {final : Wrapping}
    (ran : (run mode (ofOutline source (ofProgram program), report)).1 = final) {site : Site}
    (member : site ∈ (ofProgram program).sites) {id : ScopeId}
    (refers : final.resolution.declaredIn? site.node = some id) :
    ((Resolution.ofOutline (ofProgram program)).declaredIn? site.node = some id ∧
      final.resolution.resolves site.node id = true) ∨
    ∃ capture loop target, (Resolution.ofOutline (ofProgram program)).capture? site = some capture ∧
      loop ∈ (ofProgram program).subtrees ∧ loop.label.node = capture.loop ∧
      capture.loop.id ∈ final.wrapped ∧
      (ofOutline source (ofProgram program)).target? loop = some target ∧
      (final.resolution.resolves site.node id = true ↔ target.body.label.node ∈ site.above ∧
        target.declares (Resolution.ofOutline (ofProgram program)).arena capture.name = true) := by
  have regular := regular_of_ofText parsed
  have reached := (visited_run parsed mode report).reached
  have tracked : Tracked (ofProgram program) (ofOutline source (ofProgram program)) final := by
    rw [← ran]
    exact tracked_foldl regular (Resolution.grounded_ofOutline program)
      (Resolution.lexical_ofOutline program) (Resolution.complete_ofOutline regular) rfl rfl
      (List.append_nil _).symm
  rw [ran] at reached
  rcases tracked.references site member with kept | ⟨loop, target, other, known⟩
  · have before := kept.symm.trans refers
    exact .inl ⟨before, resolves_of_kept reached member before⟩
  · obtain rfl := Option.some.inj (known.declaredIn.symm.trans refers)
    obtain ⟨capture, captured, ofLoop⟩ := known.captured
    obtain ⟨_, _, _, named, -⟩ := Resolution.capture?_eq_some.mp captured
    refine .inr ⟨capture, loop, target, captured, known.inside, ofLoop.symm, ofLoop ▸ known.wrapped,
      known.fits, ?_⟩
    obtain ⟨first, own, place, foundFirst, -⟩ :=
      reached.lexical.placed site member (slot_of_isReference named.reference)
    obtain ⟨ids, way⟩ := reached.lexical.ways first (get?_lt foundFirst)
    rw [Resolution.resolves_iff named.name place way, known.names,
      known.mem_way_iff regular reached tracked member named.reference place way]
    exact Iff.rfl

theorem exists_site_of_check {place : Nat} {test : Program → Site → Bool}
    (checked : ((Program.ofText source).toOption.any fun program =>
        (ofProgram program).sites[place]?.any (test program)) = true) :
    ∃ program site, Program.ofText source = .ok program ∧ site ∈ (ofProgram program).sites ∧
      test program site = true := by
  obtain ⟨program, parsed, checked⟩ := Program.exists_of_any checked
  obtain ⟨site, found, passed⟩ := (Option.any_eq_true _ _).mp checked
  exact ⟨program, site, parsed, List.mem_of_getElem? found, passed⟩

/-- A variable of a header is handed on to the function around the body. -/
theorem run_references_parameter : ∃ program site final,
    Program.ofText "for (const x of xs) \x7b f(() => x); \x7d".toList = .ok program ∧
    (run .wrap (ofOutline "for (const x of xs) \x7b f(() => x); \x7d".toList (ofProgram program),
      .empty none)).1 = final ∧
    site ∈ (ofProgram program).sites ∧ final.resolution.declaredIn? site.node = some 2 ∧
    ∃ (capture : Capture) (loop : Outline) (target : Target),
      loop ∈ (ofProgram program).subtrees ∧ loop.label.node = capture.loop ∧
      (ofOutline "for (const x of xs) \x7b f(() => x); \x7d".toList (ofProgram program)).target? loop =
        some target ∧
      (final.resolution.resolves site.node 2 = true ↔ target.body.label.node ∈ site.above ∧
        target.declares (Resolution.ofOutline (ofProgram program)).arena capture.name = true) := by
  have checked : ((Program.ofText "for (const x of xs) \x7b f(() => x); \x7d".toList).toOption.any
        fun program =>
        (ofProgram program).sites[11]?.any fun site =>
        let final := (run .wrap (ofOutline "for (const x of xs) \x7b f(() => x); \x7d".toList
          (ofProgram program), .empty none)).1
        (Resolution.ofOutline (ofProgram program)).declaredIn? site.node == some 1 &&
          final.resolution.declaredIn? site.node == some 2) = true := by
    decide +kernel
  generalize String.toList _ = source at checked ⊢
  obtain ⟨program, site, parsed, member, passed⟩ := exists_site_of_check checked
  simp only [Bool.and_eq_true, beq_iff_eq] at passed
  obtain ⟨before, after⟩ := passed
  refine ⟨program, site, _, parsed, rfl, member, after, ?_⟩
  rcases run_references parsed .wrap (.empty none) rfl member after with
    ⟨kept, -⟩ | ⟨capture, loop, target, -, inside, same, -, fits, rule⟩
  · rw [before] at kept
    cases kept
  · exact ⟨capture, loop, target, inside, same, fits, rule⟩

/-- The variable of a block in the body: after the pass the reference points to a scope that does not
declare its name. -/
theorem run_unresolved : ∃ program site final,
    Program.ofText "while (0) \x7b \x7b let j; () => j; \x7d \x7d".toList = .ok program ∧
    (Resolution.ofOutline (ofProgram program)).conflicts = [] ∧
    (run .wrap (ofOutline "while (0) \x7b \x7b let j; () => j; \x7d \x7d".toList
      (ofProgram program), .empty none)).1 = final ∧
    site ∈ (ofProgram program).sites ∧ final.resolution.declaredIn? site.node = some 1 ∧
    final.resolution.resolves site.node 1 = false := by
  have checked : ((Program.ofText "while (0) \x7b \x7b let j; () => j; \x7d \x7d".toList).toOption.any
        fun program =>
        (ofProgram program).sites[10]?.any fun site =>
        let final := (run .wrap (ofOutline "while (0) \x7b \x7b let j; () => j; \x7d \x7d".toList
          (ofProgram program), .empty none)).1
        (Resolution.ofOutline (ofProgram program)).conflicts.isEmpty &&
          final.resolution.declaredIn? site.node == some 1 &&
            site.node.name? == some "j" && !final.resolution.arena.declares 1 "j") = true := by
    decide +kernel
  generalize String.toList _ = source at checked ⊢
  obtain ⟨program, site, parsed, member, passed⟩ := exists_site_of_check checked
  simp only [Bool.and_eq_true, List.isEmpty_iff, beq_iff_eq, Bool.not_eq_true'] at passed
  obtain ⟨⟨⟨resolved, refers⟩, named⟩, absent⟩ := passed
  exact ⟨program, site, _, parsed, resolved, rfl, member, refers,
    Resolution.not_resolves named absent⟩

end Wrapping

end LoopCapture
