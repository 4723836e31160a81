import LoopCapture.Proofs.Wrapping.Lexical

/-!
# How scopes change over a run

Wrapping a loop keeps the owners and the names of all scopes, apart from a parameter in the scope of
the function around the body. Ways up only get longer. A reference is sent to another scope only for
a wrapped loop, and there it cannot be a capture again. For the loops that have not been wrapped,
wrapping means at any time what it meant at the start.
-/

set_option autoImplicit false

namespace LoopCapture

open Arena Outline Relation

/-! ## Old scopes -/

namespace Arena

/-- Scopes keep their owners and their names, and new names are parameters. -/
def Extends (before after : Arena) : Prop :=
  ∀ id scope, before.get? id = some scope → ∃ changed, after.get? id = some changed ∧
    changed.owner = scope.owner ∧ ∀ name, changed.bindings.get? name = scope.bindings.get? name ∨
      scope.bindings.get? name = none ∧ ∃ ident, changed.bindings.get? name = some ⟨.param, ident⟩

namespace Extends

variable {first second third : Arena}

theorem refl (arena : Arena) : Extends arena arena :=
  fun _ scope found => ⟨scope, found, rfl, fun _ => .inl rfl⟩

theorem trans (former : Extends first second) (latter : Extends second third) :
    Extends first third := by
  intro id scope found
  obtain ⟨middle, foundMiddle, owner, names⟩ := former id scope found
  obtain ⟨changed, foundChanged, ownerToo, namesToo⟩ := latter id middle foundMiddle
  refine ⟨changed, foundChanged, ownerToo.trans owner, fun name => ?_⟩
  rcases namesToo name with same | ⟨absent, ident, param⟩
  · rw [same]
    exact names name
  · rcases names name with old | ⟨-, other, known⟩
    · exact .inr ⟨old ▸ absent, ident, param⟩
    · rw [absent] at known
      cases known

theorem modify (arena : Arena) (id : ScopeId) {change : Scope → Scope}
    (same : ∀ scope, (change scope).owner = scope.owner ∧
      (change scope).bindings = scope.bindings) : Extends arena (arena.modify id change) := by
  intro other scope found
  rw [get?_modify, found]
  split
  · exact ⟨_, rfl, (same scope).1, fun name => .inl (by rw [(same scope).2])⟩
  · exact ⟨scope, rfl, rfl, fun _ => .inl rfl⟩

theorem blockScoped_iff {id : ScopeId} {scope changed : Scope} (extend : Extends first second)
    (found : first.get? id = some scope) (foundChanged : second.get? id = some changed)
    {name : String} {binding : Binding} (lexical : binding.kind.isBlockScoped = true) :
    changed.bindings.get? name = some binding ↔ scope.bindings.get? name = some binding := by
  obtain ⟨other, foundOther, -, names⟩ := extend id scope found
  rw [foundChanged] at foundOther
  obtain rfl := Option.some.inj foundOther
  rcases names name with same | ⟨absent, ident, param⟩
  · rw [same]
  · rw [absent, param]
    constructor
    · intro known
      obtain rfl := Option.some.inj known
      cases lexical
    · nofun

end Extends

theorem Enclosed.extend {prior : ScopeId} {moved : List ScopeId} {owner : Site}
    {before after : Arena} (enclosed : Enclosed prior moved owner before after) :
    Extends before after := by
  intro id scope found
  obtain ⟨changed, foundChanged, -, sameOwner, bindings, -⟩ := enclosed.kept id scope found
  exact ⟨changed, foundChanged, sameOwner, fun name => .inl (by rw [bindings])⟩

end Arena

/-- Old scopes are extended, and the ways from the scopes of the nodes only get longer. -/
structure Resolution.Evolves (before after : Resolution) : Prop where
  extend : Extends before.arena after.arena
  longer : ∀ (place : Nat) (id : ScopeId) (ids : List ScopeId), before.scopeOf[place]? = some id →
    Way before.arena (some id) ids → ∃ current currentIds, after.scopeOf[place]? = some current ∧
      Way after.arena (some current) currentIds ∧ ids ⊆ currentIds

namespace Resolution.Evolves

variable {first second third : Resolution}

theorem refl (resolution : Resolution) : Evolves resolution resolution :=
  ⟨.refl _, fun _ id ids found way => ⟨id, ids, found, way, List.Subset.refl _⟩⟩

theorem trans (former : Evolves first second) (latter : Evolves second third) :
    Evolves first third := by
  refine ⟨former.extend.trans latter.extend, fun place id ids found way => ?_⟩
  obtain ⟨middle, middleIds, foundMiddle, wayMiddle, subset⟩ := former.longer place id ids found way
  obtain ⟨current, currentIds, foundCurrent, wayCurrent, subsetToo⟩ :=
    latter.longer place middle middleIds foundMiddle wayMiddle
  exact ⟨current, currentIds, foundCurrent, wayCurrent, List.Subset.trans subset subsetToo⟩

theorem framed (extend : Extends first.arena second.arena) (framed : Framed first.arena second.arena)
    (same : second.scopeOf = first.scopeOf) : Evolves first second :=
  ⟨extend, fun _ id ids found way => ⟨id, ids, same ▸ found, framed.way way, List.Subset.refl _⟩⟩

end Resolution.Evolves

namespace Wrapping

variable {body : Outline} {scope : ScopeId}

theorem Rescoped.evolves {prior : ScopeId} {before after : Resolution}
    (rescoped : Rescoped body prior before after) : before.Evolves after := by
  refine ⟨rescoped.enclosed.extend, fun place id ids found way => ?_⟩
  have placed := rescoped.scopeOf place id found
  by_cases moves : place ∈ body.sites.map (·.node.id) ∧ id = prior
  · rw [if_pos moves] at placed
    refine ⟨_, _, placed, rescoped.enclosed.way_new (moves.2 ▸ way), ?_⟩
    exact List.subset_cons_of_subset _ (subset_detour _ _ _)
  · rw [if_neg moves] at placed
    exact ⟨_, _, placed, rescoped.enclosed.way way, subset_detour _ _ _⟩

/-! ## Parameters -/

variable {outline loop : Outline} {state next : Wrapping} {target : Target}

theorem declareParam_cases (arena : Arena) (wrapper : ScopeId) (param : Option Node) :
    declareParam arena wrapper param = arena ∨ ∃ ident, param = some ident ∧
      arena.declares wrapper (ident.name?.getD "") = false ∧
      declareParam arena wrapper param =
        arena.declare wrapper (ident.name?.getD "") ⟨.param, ident⟩ := by
  cases param with
  | none => exact .inl rfl
  | some ident =>
      unfold declareParam
      dsimp only
      split
      · exact .inl rfl
      · rename_i absent
        exact .inr ⟨ident, rfl, Bool.eq_false_iff.mpr absent, rfl⟩

theorem extends_declareParam (arena : Arena) (wrapper : ScopeId) (param : Option Node) :
    Extends arena (declareParam arena wrapper param) := by
  rcases declareParam_cases arena wrapper param with same | ⟨ident, -, absent, same⟩
  · rw [same]
    exact .refl arena
  · rw [same]
    intro id scope found
    rw [declare, get?_modify, found]
    by_cases here : id = wrapper
    · rw [if_pos here]
      refine ⟨_, rfl, rfl, fun name => ?_⟩
      dsimp only
      rw [Entries.get?_put]
      split
      · rename_i named
        rw [declares, ← here, found] at absent
        exact .inr ⟨by simpa [named, Scope.declares, Entries.has_eq_false_iff] using absent, ident, rfl⟩
      · exact .inl rfl
    · rw [if_neg here]
      exact ⟨scope, rfl, rfl, fun _ => .inl rfl⟩

theorem declares_declareParam {arena : Arena} {wrapper id : ScopeId} (different : id ≠ wrapper)
    (param : Option Node) (name : String) :
    (declareParam arena wrapper param).declares id name = arena.declares id name := by
  rcases declareParam_cases arena wrapper param with same | ⟨ident, -, -, same⟩
  · rw [same]
  · rw [same, declares, declares, declare, get?_modify, if_neg different]

/-! ## Steps -/

theorem declaredIn_wrapperScope (resolution : Resolution) (target : Target) :
    (wrapperScope resolution target).1.declaredIn = resolution.declaredIn := by
  unfold wrapperScope
  split <;> rfl

theorem evolves_wrapperScope (regular : Regular outline)
    (lexical : Resolution.Lexical outline state.resolution) (inside : loop ∈ outline.subtrees)
    (fits : state.target? loop = some target) :
    state.resolution.Evolves (wrapperScope state.resolution target).1 := by
  rcases wrapperScope_cases regular lexical inside fits with
    ⟨prior, around, -, -, -, rescoped, -⟩ | ⟨scope, own, -, -, -, -, -, wrapped⟩
  · exact rescoped.evolves
  · rw [wrapped]
    exact .framed (.modify _ _ fun _ => ⟨rfl, rfl⟩) (.modify _ _ fun _ => ⟨rfl, rfl, rfl⟩) rfl

theorem Step.evolves (regular : Regular outline)
    (lexical : Resolution.Lexical outline state.resolution) (step : Step outline state next) :
    state.resolution.Evolves next.resolution := by
  cases step with
  | wrap ref inside unwrapped fits =>
      exact (evolves_wrapperScope regular lexical inside fits).trans
        (.framed (extends_declareParam _ _ _) (framed_declareParam _ _ _) rfl)

/-- The scope of the function around a body belongs to the body; unless the body has braces, it has
no names but parameters. -/
theorem wrapper_get? (regular : Regular outline)
    (lexical : Resolution.Lexical outline state.resolution) (inside : loop ∈ outline.subtrees)
    (fits : state.target? loop = some target) (ref : Node) :
    ∃ scope, (state.wrap target ref).1.resolution.arena.get? (state.wrap target ref).2 = some scope ∧
      scope.owner = target.body.label ∧ (target.body.label.node.form = .block ∨
        ∀ name binding, scope.bindings.get? name = some binding →
          binding.kind.isBlockScoped = false) := by
  have extend := extends_declareParam (wrapperScope state.resolution target).1.arena
    (wrapperScope state.resolution target).2 target.param
  rcases wrapperScope_cases regular lexical inside fits with
    ⟨prior, around, -, -, -, rescoped, wrapper⟩ | ⟨scope, own, -, -, found, owner, form, wrapped⟩
  · obtain ⟨children, new⟩ := rescoped.enclosed.new
    rw [← wrapper] at new
    obtain ⟨changed, foundChanged, sameOwner, names⟩ := extend _ _ new
    refine ⟨changed, foundChanged, sameOwner, .inr fun name binding known => ?_⟩
    rcases names name with same | ⟨-, ident, param⟩
    · rw [known] at same
      cases same
    · rw [known] at param
      obtain rfl := Option.some.inj param
      rfl
  · have hoisted : (state.resolution.arena.setKind scope .hoist).get? scope =
        some { own with kind := .hoist } := by
      rw [setKind, get?_modify, if_pos rfl, found]
      rfl
    rw [wrapped] at extend
    obtain ⟨changed, foundChanged, sameOwner, -⟩ := extend scope _ hoisted
    refine ⟨changed, ?_, sameOwner.trans owner, .inl form⟩
    simp only [wrap, wrapped]
    exact foundChanged

/-- A scope without captures: it has no block scoped names, or its loop has been wrapped. -/
def Settled (state : Wrapping) (id : ScopeId) : Prop :=
  ∃ scope, state.resolution.arena.get? id = some scope ∧
    ((∀ name binding, scope.bindings.get? name = some binding →
      binding.kind.isBlockScoped = false) ∨
    ∃ loop, scope.owner.enclosingLoop? = some loop ∧ loop.id ∈ state.wrapped)

theorem Step.wrapped_subset (step : Step outline state next) : state.wrapped ⊆ next.wrapped := by
  cases step
  exact List.subset_append_left _ _

theorem Step.settled (regular : Regular outline)
    (lexical : Resolution.Lexical outline state.resolution) (step : Step outline state next)
    {id : ScopeId} (settled : Settled state id) : Settled next id := by
  obtain ⟨scope, found, reason⟩ := settled
  have extend := (step.evolves regular lexical).extend
  obtain ⟨changed, foundChanged, owner, names⟩ := extend id scope found
  refine ⟨changed, foundChanged, ?_⟩
  rcases reason with none | ⟨loop, enclosing, wrapped⟩
  · refine .inl fun name binding known => ?_
    by_contra lexicalToo
    have old := (extend.blockScoped_iff found foundChanged (Bool.not_eq_false _ ▸ lexicalToo)).mp known
    exact lexicalToo (none name binding old)
  · exact .inr ⟨loop, owner ▸ enclosing, step.wrapped_subset wrapped⟩

/-- The nearest loop at a body with braces is the loop. -/
theorem enclosingLoop?_body (regular : Regular outline) (inside : loop ∈ outline.subtrees)
    (bodied : loop.loopBody? = some body) (form : body.label.node.form = .block) :
    body.label.enclosingLoop? = some loop.label.node := by
  obtain ⟨-, above, -, isLoop, -⟩ := regular.body inside bodied
  have passed : (body.label.node.isFunction || body.label.node.isLoop) = false := by
    simp [Node.isFunction, Node.isLoop, form, Form.isFunction, Form.isLoop]
  rw [Site.enclosingLoop?, Site.path, above, Site.path, List.find?_cons_of_neg (by simp [passed]),
    List.find?_cons_of_pos (by simp [isLoop])]
  simp [Option.filter, isLoop]

/-- A reference that a step sends elsewhere is no capture there. -/
theorem Step.declaredIn? (regular : Regular outline)
    (lexical : Resolution.Lexical outline state.resolution) (step : Step outline state next)
    (node : Node) : next.resolution.declaredIn? node = state.resolution.declaredIn? node ∨
      ∃ id, next.resolution.declaredIn? node = some id ∧ Settled next id := by
  cases step with
  | @wrap loop target ref inside unwrapped fits =>
      have changed : (state.wrap target ref).1.resolution.declaredIn =
          state.resolution.declaredIn.modify ref.id fun _ => some (state.wrap target ref).2 := by
        simp only [Wrapping.wrap, declaredIn_wrapperScope]
      unfold Resolution.declaredIn?
      rw [changed, Array.getElem?_modify]
      by_cases here : ref.id = node.id
      · rw [if_pos here]
        cases state.resolution.declaredIn[node.id]? with
        | none => exact .inl rfl
        | some _ =>
            obtain ⟨bodied, same, -⟩ := target?_eq_some fits
            obtain ⟨scope, found, owner, reason⟩ := wrapper_get? regular lexical inside fits ref
            refine .inr ⟨_, rfl, scope, found, ?_⟩
            rcases reason with form | none
            · refine .inr ⟨loop.label.node, owner ▸ enclosingLoop?_body regular inside bodied form, ?_⟩
              simp [Wrapping.wrap, same]
            · exact .inl none
      · rw [if_neg here]
        exact .inl rfl

/-! ## Loops that are still to be wrapped -/

theorem target?_of_placed (bodied : loop.loopBody? = some body)
    (placed : state.resolution.scope? body.label.node = some scope) :
    state.target? loop =
      let arena := state.resolution.arena
      let bodyScope := if body.label.node.form = .block && opens arena body.label scope
        then some scope else none
      let param := (loop.iterationVariable?.map Site.node).filter fun ident =>
        !bodyScope.any fun id => arena.declares id (ident.name?.getD "")
      some ⟨loop.label, body, param, bodyScope⟩ := by
  simp only [target?, bodied, placed, bind, Option.bind_some]
  rfl

/-- The scope of a body with braces stays its scope, and keeps its names, while other loops are
wrapped. -/
theorem target?_congr {moved : ScopeId} (bodied : loop.loopBody? = some body)
    (placed : state.resolution.scope? body.label.node = some scope)
    (placedToo : next.resolution.scope? body.label.node = some moved)
    (opened : body.label.node.form = .block →
      opens next.resolution.arena body.label moved = opens state.resolution.arena body.label scope)
    (same : body.label.node.form = .block →
      opens state.resolution.arena body.label scope = true → moved = scope ∧
        ∀ name, next.resolution.arena.declares scope name =
          state.resolution.arena.declares scope name) :
    next.target? loop = state.target? loop := by
  rw [target?_of_placed bodied placed, target?_of_placed bodied placedToo]
  by_cases form : body.label.node.form = .block
  · simp only [form, opened form]
    cases opensScope : opens state.resolution.arena body.label scope with
    | false => simp
    | true =>
        obtain ⟨rfl, names⟩ := same form opensScope
        simp [names]
  · simp [form]

theorem opens_eq_of_extend {before after : Arena} (extend : Extends before after)
    (bound : scope < before.size) (site : Site) :
    opens after site scope = opens before site scope := by
  obtain ⟨own, found⟩ := get?_of_lt bound
  obtain ⟨changed, foundChanged, owner, -⟩ := extend scope own found
  simp [opens, found, foundChanged, owner]

theorem opens_eq_of_framed {before after : Arena} (framed : Framed before after) (site : Site)
    (scope : ScopeId) : opens after site scope = opens before site scope := by
  by_cases bound : scope < before.size
  · obtain ⟨own, found⟩ := get?_of_lt bound
    obtain ⟨changed, foundChanged, owner, -⟩ := framed.kept scope own found
    simp [opens, found, foundChanged, owner]
  · have beyond : ¬ scope < after.size := framed.size ▸ bound
    simp [opens, get?_of_not_lt bound, get?_of_not_lt beyond]

theorem body_id_ne (regular : Regular outline) {other otherBody : Outline}
    (inside : loop ∈ outline.subtrees) (otherInside : other ∈ outline.subtrees)
    (bodied : loop.loopBody? = some body) (otherBodied : other.loopBody? = some otherBody)
    (different : loop.label.node.id ≠ other.label.node.id) :
    body.label.node.id ≠ otherBody.label.node.id := by
  intro same
  obtain ⟨bodyInside, above, -⟩ := regular.body inside bodied
  obtain ⟨otherBodyInside, otherAbove, -⟩ := regular.body otherInside otherBodied
  have equal := regular.eq_of_id (label_mem_sites bodyInside) (label_mem_sites otherBodyInside) same
  rw [equal, otherAbove] at above
  exact different (congrArg Node.id (List.cons.inj above).1).symm

/-- Wrapping a loop leaves the scope of every other body with braces alone. -/
theorem wrapperScope_elsewhere (regular : Regular outline)
    (lexical : Resolution.Lexical outline state.resolution) (inside : loop ∈ outline.subtrees)
    (fits : state.target? loop = some target) (bodyInside : body ∈ outline.subtrees)
    (different : body.label.node.id ≠ target.body.label.node.id)
    (placed : state.resolution.scope? body.label.node = some scope)
    (bound : scope < state.resolution.arena.size) :
    ∃ moved, (wrapperScope state.resolution target).1.scope? body.label.node = some moved ∧
      opens (wrapperScope state.resolution target).1.arena body.label moved =
        opens state.resolution.arena body.label scope ∧
      (opens state.resolution.arena body.label scope = true → moved = scope ∧
        scope ≠ (wrapperScope state.resolution target).2 ∧
        ∀ name, (wrapperScope state.resolution target).1.arena.declares scope name =
          state.resolution.arena.declares scope name) := by
  have owner (opened : opens state.resolution.arena body.label scope = true) :
      ∃ own, state.resolution.arena.get? scope = some own ∧ own.owner = body.label := by
    obtain ⟨own, found⟩ := get?_of_lt bound
    have same : own.owner.node.id = body.label.node.id := by simpa [opens, found] using opened
    exact ⟨own, found,
      regular.eq_of_id (lexical.owners scope own found) (label_mem_sites bodyInside) same⟩
  have extend := (evolves_wrapperScope regular lexical inside fits).extend
  rcases wrapperScope_cases regular lexical inside fits with
    ⟨prior, around, -, foundPrior, outside, rescoped, wrapper⟩ |
    ⟨wrapper, own, -, -, found, ownerToo, -, wrapped⟩
  · have place := rescoped.scopeOf body.label.node.id scope placed
    obtain ⟨children, new⟩ := rescoped.enclosed.new
    by_cases moves : body.label.node.id ∈ target.body.sites.map (·.node.id) ∧ scope = prior
    · -- The scope around the other body is not the scope of this one, which lies deeper.
      rw [if_pos moves] at place
      have closed : opens state.resolution.arena body.label scope = false := by
        by_contra opened
        obtain ⟨own, found, same⟩ := owner (Bool.not_eq_false _ ▸ opened)
        rw [moves.2, foundPrior] at found
        obtain rfl := Option.some.inj found
        rw [same] at outside
        obtain ⟨site, among, numbered⟩ := List.mem_map.mp moves.1
        have targetInside := (regular.body inside (target?_eq_some fits).1).1
        have equal := regular.eq_of_id (Tree.preorder_subset targetInside among)
          (label_mem_sites bodyInside) numbered
        have deeper := regular.path_suffix targetInside (equal ▸ among)
        have paths := outside.eq_of_length (Nat.le_antisymm outside.length_le deeper.length_le)
        exact different (congrArg Node.id (List.cons.inj paths).1)
      refine ⟨_, place, ?_, fun opened => absurd opened (by simp [closed])⟩
      rw [closed]
      simp [opens, new, Ne.symm different]
    · rw [if_neg moves] at place
      refine ⟨scope, place, opens_eq_of_extend extend bound _, fun _ => ⟨rfl, ?_, fun name => ?_⟩⟩
      · rw [wrapper]
        exact Nat.ne_of_lt bound
      · rw [Bool.eq_iff_iff, declares_iff, declares_iff, rescoped.enclosed.binding?_eq]
  · refine ⟨scope, ?_, opens_eq_of_extend extend bound _, fun opened => ⟨rfl, ?_, fun name => ?_⟩⟩
    · rw [wrapped]
      exact placed
    · rw [wrapped]
      rintro rfl
      obtain ⟨other, foundOther, same⟩ := owner opened
      rw [found] at foundOther
      obtain rfl := Option.some.inj foundOther
      exact different (congrArg (·.node.id) (same.symm.trans ownerToo))
    · rw [wrapped]
      dsimp only
      rw [setKind, declares, declares, get?_modify]
      split
      · cases state.resolution.arena.get? scope <;> rfl
      · rfl

/-- Wrapping a loop changes nothing for the wrapping of another one. -/
theorem Step.target?_eq (regular : Regular outline)
    (lexical : Resolution.Lexical outline state.resolution) (step : Step outline state next)
    (inside : loop ∈ outline.subtrees) (unwrapped : loop.label.node.id ∉ next.wrapped) :
    next.target? loop = state.target? loop := by
  cases step with
  | @wrap other target ref otherInside _ fits =>
      obtain ⟨otherBodied, same, -⟩ := target?_eq_some fits
      have different : loop.label.node.id ≠ other.label.node.id := by
        rintro equal
        apply unwrapped
        simp [Wrapping.wrap, same, equal]
      cases bodied : loop.loopBody? with
      | none => simp [target?, bodied]
      | some body =>
          obtain ⟨bodyInside, -, slot, -⟩ := regular.body inside bodied
          obtain ⟨scope, own, placed, found, -⟩ :=
            lexical.placed body.label (label_mem_sites bodyInside) (by simp [slot])
          obtain ⟨moved, placedToo, opened, kept⟩ := wrapperScope_elsewhere regular lexical
            otherInside fits bodyInside
            (body_id_ne regular inside otherInside bodied otherBodied different) placed (get?_lt found)
          have framed := framed_declareParam (wrapperScope state.resolution target).1.arena
            (wrapperScope state.resolution target).2 target.param
          refine target?_congr bodied placed placedToo (fun _ => ?_) fun _ opens => ?_
          · rw [← opened]
            exact opens_eq_of_framed framed body.label moved
          · obtain ⟨here, elsewhere, names⟩ := kept opens
            exact ⟨here, fun name => (declares_declareParam elsewhere _ name).trans (names name)⟩

/-! ## Runs -/

/-- What holds of every program that the pass reaches from another one. -/
structure Reached (outline : Outline) (start state : Wrapping) : Prop where
  outline_eq : state.outline = outline
  lexical : Resolution.Lexical outline state.resolution
  evolves : start.resolution.Evolves state.resolution
  declaredIn : ∀ node, state.resolution.declaredIn? node = start.resolution.declaredIn? node ∨
    ∃ id, state.resolution.declaredIn? node = some id ∧ Settled state id
  targets : ∀ loop ∈ outline.subtrees, loop.label.node.id ∉ state.wrapped →
    state.target? loop = start.target? loop

namespace Reached

variable {start : Wrapping}

theorem refl (lexical : Resolution.Lexical outline start.resolution) (same : start.outline = outline) :
    Reached outline start start :=
  ⟨same, lexical, .refl _, fun _ => .inl rfl, fun _ _ _ => rfl⟩

theorem step (regular : Regular outline) (reached : Reached outline start state)
    (step : Step outline state next) : Reached outline start next := by
  have lexical := reached.lexical
  refine ⟨step.outline_eq.trans reached.outline_eq, step.lexical regular lexical,
    reached.evolves.trans (step.evolves regular lexical), fun node => ?_,
    fun loop inside unwrapped => ?_⟩
  · rcases step.declaredIn? regular lexical node with same | moved
    · rw [same]
      rcases reached.declaredIn node with old | ⟨id, found, settled⟩
      · exact .inl old
      · exact .inr ⟨id, found, step.settled regular lexical settled⟩
    · exact .inr moved
  · rw [step.target?_eq regular lexical inside unwrapped]
    exact reached.targets loop inside fun wrapped => unwrapped (step.wrapped_subset wrapped)

theorem steps (regular : Regular outline) (reached : Reached outline start state)
    (steps : ReflTransGen (Step outline) state next) : Reached outline start next := by
  induction steps with
  | refl => exact reached
  | tail _ step ih => exact ih.step regular step

end Reached

end Wrapping

end LoopCapture
