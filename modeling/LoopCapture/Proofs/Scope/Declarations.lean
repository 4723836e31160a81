import LoopCapture.Proofs.Outline.Regular
import LoopCapture.Proofs.Scope.Collecting

/-!
# Declarations of a program and the names of its scopes

Which identifiers of a program declare a name, said by the nodes above them alone. The visits of the
walk over the program enter these names and no others. So if nothing is refused, every declaration
has a place in the scope that it is meant for. A variable declared by `var` meets every block scoped
declaration of its name that stands between it and the scope that hoists it, if the walk has come by
that declaration already or if it stands in the scope that hoists.
-/

set_option autoImplicit false

namespace LoopCapture

open Resolution Resolution.Collected

/-- The names that an identifier declares, with the node that makes the declaration. -/
inductive Site.Declaring (site : Site) : BindingKind → Node → Prop
  | declared {declarator declaration : Node} {above : List Node} {kind : DeclKind} :
      site.node.slot = .declared → site.above = declarator :: declaration :: above →
      declarator.form = .declarator → declaration.form = .declaration kind →
      Declaring site (.ofDecl kind) declaration
  | functionName {function : Node} {above : List Node} {kind : FunctionKind} :
      site.node.slot = .functionName → site.above = function :: above →
      function.form = .function kind → Declaring site .fun function
  | parameter {function : Node} {above : List Node} {kind : FunctionKind} :
      site.node.slot = .parameter → site.above = function :: above →
      function.form = .function kind → Declaring site .param function
  | caught {handler : Node} {above : List Node} :
      site.node.slot = .caught → site.above = handler :: above →
      handler.form = .catchClause → Declaring site .caught handler

namespace Resolution.Collected

open Arena Outline

variable {program : Program} {site : Site} {kind : BindingKind} {maker : Node}

/-! ## From declarations to visits -/

theorem exists_visit_above {part : Outline} (inside : part ∈ (ofProgram program).subtrees)
    {upper : Node} {above : List Node} (path : part.label.above = upper :: above)
    (notRoot : upper.form ≠ .program) :
    ∃ visit ∈ tour program, visit.part.label = ⟨upper, above⟩ ∧ part ∈ visit.part.children := by
  rcases Tree.exists_parent _ inside with rfl | ⟨parent, parentInside, child⟩
  · rw [(rooted_ofProgram program).above_eq] at path
    cases path
  · have upwards := (((rooted_ofProgram program).subtree parentInside).child child).above_eq
    have same : parent.label = ⟨upper, above⟩ := by
      rw [path] at upwards
      obtain ⟨node, rest⟩ := List.cons.inj upwards
      rw [node, rest]
    rcases Tree.mem_subtrees.mp parentInside with rfl | ⟨other, among, below⟩
    · have node : (ofProgram program).label.node = upper := congrArg Site.node same
      exact absurd (node ▸ rfl) notRoot
    · obtain ⟨visit, member, rfl⟩ := exists_visit (Tree.mem_subtreesAll.mpr ⟨other, among, below⟩)
      exact ⟨visit, member, same, child⟩

section Visited

variable {visit : Visit} (member : visit ∈ tour program) {child : Outline}
  (among : child ∈ visit.part.children)

include member among

theorem mem_sites_of_child :
    child.label ∈ (ofProgram program).sites ∧ child.label.above = visit.part.label.path := by
  have outer := part_mem_subtrees member
  refine ⟨label_mem_sites (Tree.child_mem_subtrees outer among), ?_⟩
  exact (((rooted_ofProgram program).subtree outer).child among).above_eq

theorem scopeOf_name {slot : Slot} (placed : child.label.node.slot = slot)
    (named : slot.isName = true) :
    (Resolution.collect (ofProgram program)).scopeOf[child.label.node.id]? =
      some (if slot = .functionName then visit.outer else visit.inner) := by
  subst placed
  obtain ⟨inside, above⟩ := mem_sites_of_child member among
  obtain ⟨name, form⟩ := form_of_isName inside above named
  obtain ⟨below, belowMember, rfl, outer⟩ := exists_visitAll_child member child among
  rw [scopeOf_visit belowMember, Visit.inner_of_closed (by simp [Visit.opening?, opening, form]),
    outer]

/-- The variable of a declarator stands in the scope around the declaration. -/
theorem scopeOf_declared {kind : DeclKind} (form : visit.part.label.node.form = .declaration kind)
    {ident : Outline} (inside : ident ∈ child.children)
    (slot : ident.label.node.slot = .declared) :
    (Resolution.collect (ofProgram program)).scopeOf[ident.label.node.id]? = some visit.outer := by
  have declares := form_declarator (part_mem_subtrees member) form among
  have plain : child.label.node.slot ≠ .functionName := by
    intro named
    obtain ⟨childInside, above⟩ := mem_sites_of_child member among
    obtain ⟨name, isName⟩ := form_of_isName childInside above (by rw [named]; rfl)
    rw [declares] at isName
    cases isName
  obtain ⟨below, belowMember, rfl, around⟩ := exists_visitAll_child member child among
  rw [if_neg plain, Visit.inner_of_closed (by simp [Visit.opening?, opening, form])] at around
  rw [scopeOf_name belowMember inside slot rfl, if_neg (by simp),
    Visit.inner_of_closed (by simp [Visit.opening?, opening, declares]), around]

end Visited

theorem mem_inSlot {slot : Slot} {ident : Node} {children : List Outline} :
    ident ∈ inSlot slot children ↔
      ∃ child ∈ children, child.label.node.slot = slot ∧ child.label.node = ident := by
  simp only [inSlot, List.mem_filter, List.mem_map, beq_iff_eq]
  constructor
  · rintro ⟨⟨child, among, rfl⟩, same⟩
    exact ⟨child, among, same, rfl⟩
  · rintro ⟨child, among, same, rfl⟩
    exact ⟨⟨child, among, rfl⟩, same⟩

/-- A declaration is entered by the visit of the node that makes it, in the scope of the
identifier. -/
def Enters (program : Program) (visit : Visit) (kind : BindingKind) (ident : Node) : Prop :=
  (kind, ident) ∈ visit.outside ∧
      (Resolution.collect (ofProgram program)).scopeOf[ident.id]? = some visit.outer ∨
    (kind, ident) ∈ visit.inside ∧
      (Resolution.collect (ofProgram program)).scopeOf[ident.id]? = some visit.inner

theorem exists_visit_of_declaring (member : site ∈ (ofProgram program).sites)
    (declaring : site.Declaring kind maker) :
    ∃ visit ∈ tour program, visit.part.label.node = maker ∧
      Enters program visit kind site.node := by
  obtain ⟨part, inside, rfl⟩ := exists_subtree member
  cases declaring with
  | @declared declarator declaration above kind slot path isDeclarator isDeclaration =>
      obtain ⟨lower, lowerMember, lowerLabel, among⟩ :=
        exists_visit_above inside path (by simp [isDeclarator])
      have middle := part_mem_subtrees lowerMember
      obtain ⟨visit, visitMember, label, amongUpper⟩ :=
        exists_visit_above middle (by rw [lowerLabel]) (by simp [isDeclaration])
      have form : visit.part.label.node.form = .declaration kind := by
        rw [label]
        exact isDeclaration
      refine ⟨visit, visitMember, by rw [label], .inl ⟨?_, ?_⟩⟩
      · have found := find?_declared middle (by rw [lowerLabel]; exact isDeclarator) among slot
        simp only [Visit.outside, namesAround, form, List.mem_map]
        refine ⟨part.label, List.mem_filterMap.mpr ⟨_, amongUpper, ?_⟩, rfl⟩
        rw [found, Option.map_some]
      · exact scopeOf_declared visitMember amongUpper form among slot
  | @functionName function above kind slot path form =>
      obtain ⟨visit, visitMember, label, among⟩ :=
        exists_visit_above inside path (by simp [form])
      refine ⟨visit, visitMember, by rw [label], .inl ⟨?_, ?_⟩⟩
      · simp only [Visit.outside, namesAround, label, form]
        exact List.mem_map_of_mem (mem_inSlot.mpr ⟨part, among, slot, rfl⟩)
      · exact scopeOf_name visitMember among slot rfl
  | @parameter function above kind slot path form =>
      obtain ⟨visit, visitMember, label, among⟩ :=
        exists_visit_above inside path (by simp [form])
      refine ⟨visit, visitMember, by rw [label], .inr ⟨?_, ?_⟩⟩
      · simp only [Visit.inside, label, form]
        exact List.mem_map_of_mem (mem_inSlot.mpr ⟨part, among, slot, rfl⟩)
      · exact scopeOf_name visitMember among slot rfl
  | @caught handler above slot path form =>
      obtain ⟨visit, visitMember, label, among⟩ :=
        exists_visit_above inside path (by simp [form])
      refine ⟨visit, visitMember, by rw [label], .inr ⟨?_, ?_⟩⟩
      · simp only [Visit.inside, label, form]
        exact List.mem_map_of_mem (mem_inSlot.mpr ⟨part, among, slot, rfl⟩)
      · exact scopeOf_name visitMember among slot rfl

section Visited

variable {visit : Visit} (member : visit ∈ tour program) {ident : Node}

include member

theorem declaring_of_outside (item : (kind, ident) ∈ visit.outside) :
    ∃ site ∈ (ofProgram program).sites, site.node = ident ∧
      site.Declaring kind visit.part.label.node ∧
      (Resolution.collect (ofProgram program)).scopeOf[ident.id]? = some visit.outer := by
  cases form : visit.part.label.node.form with
  | function _ =>
      simp only [Visit.outside, namesAround, form, List.mem_map, mem_inSlot] at item
      obtain ⟨_, ⟨child, among, slot, rfl⟩, made⟩ := item
      cases made
      obtain ⟨site, above⟩ := mem_sites_of_child member among
      exact ⟨child.label, site, rfl, .functionName slot above form, scopeOf_name member among slot rfl⟩
  | declaration _ =>
      simp only [Visit.outside, namesAround, form, List.mem_map, declaredIdents, List.mem_filterMap,
        Option.map_eq_some_iff] at item
      obtain ⟨_, ⟨declarator, among, name, found, rfl⟩, made⟩ := item
      cases made
      have inside := List.mem_of_find?_eq_some found
      have passed := List.find?_some found
      have slot : name.label.node.slot = .declared := beq_iff_eq.mp passed
      have outer := part_mem_subtrees member
      have middle := Tree.child_mem_subtrees outer among
      have site := label_mem_sites (Tree.child_mem_subtrees middle inside)
      have above := (((rooted_ofProgram program).subtree middle).child inside).above_eq
      rw [Site.path, (mem_sites_of_child member among).2] at above
      exact ⟨name.label, site, rfl, .declared slot above (form_declarator outer form among) form,
        scopeOf_declared member among form inside slot⟩
  | _ => simp [Visit.outside, namesAround, form] at item

theorem declaring_of_inside (item : (kind, ident) ∈ visit.inside) :
    ∃ site ∈ (ofProgram program).sites, site.node = ident ∧
      site.Declaring kind visit.part.label.node ∧
      (Resolution.collect (ofProgram program)).scopeOf[ident.id]? = some visit.inner := by
  cases form : visit.part.label.node.form with
  | function _ =>
      simp only [Visit.inside, form] at item
      obtain ⟨_, inPlace, made⟩ := List.mem_map.mp item
      cases made
      obtain ⟨child, among, slot, rfl⟩ := mem_inSlot.mp inPlace
      obtain ⟨site, above⟩ := mem_sites_of_child member among
      exact ⟨child.label, site, rfl, .parameter slot above form, scopeOf_name member among slot rfl⟩
  | catchClause =>
      simp only [Visit.inside, form] at item
      obtain ⟨_, inPlace, made⟩ := List.mem_map.mp item
      cases made
      obtain ⟨child, among, slot, rfl⟩ := mem_inSlot.mp inPlace
      obtain ⟨site, above⟩ := mem_sites_of_child member among
      exact ⟨child.label, site, rfl, .caught slot above form, scopeOf_name member among slot rfl⟩
  | _ => simp [Visit.inside, form] at item

/-- Names are entered by declarations only. -/
theorem declaring_of_log {entry : Entry} (logged : entry ∈ visit.log) :
    ∃ site ∈ (ofProgram program).sites, site.node = entry.ident ∧
      site.Declaring entry.kind visit.part.label.node ∧
      (Resolution.collect (ofProgram program)).scopeOf[entry.ident.id]? = some entry.id := by
  rcases List.mem_append.mp logged with outside | inside
  · obtain ⟨same, item⟩ := mem_entries outside
    rw [same]
    exact declaring_of_outside member item
  · obtain ⟨same, item⟩ := mem_entries inside
    rw [same]
    exact declaring_of_inside member item

end Visited

theorem exists_entry_of_declaring (member : site ∈ (ofProgram program).sites)
    (declaring : site.Declaring kind maker) :
    ∃ visit ∈ tour program, visit.part.label.node = maker ∧ ∃ entry ∈ visit.log,
      entry.kind = kind ∧ entry.ident = site.node ∧
        (Resolution.collect (ofProgram program)).scopeOf[site.node.id]? = some entry.id := by
  obtain ⟨visit, visitMember, made, ⟨item, place⟩ | ⟨item, place⟩⟩ :=
    exists_visit_of_declaring member declaring
  · obtain ⟨entry, among, same, known⟩ := @exists_entry visit.outer _ _ item visit.before
    rw [← same] at place
    exact ⟨visit, visitMember, made, entry, List.mem_append_left _ among, known.1, known.2, place⟩
  · obtain ⟨entry, among, same, known⟩ := @exists_entry visit.inner _ _ item visit.opened
    rw [← same] at place
    exact ⟨visit, visitMember, made, entry, List.mem_append_right _ among, known.1, known.2, place⟩

/-! ## What is known at the end of the walk -/

theorem Entry.leads {entry : Entry} (sound : entry.before.arena.Sound)
    (bound : entry.id < entry.before.arena.size) : Leads entry.before entry.after :=
  (declares_declare _ _ _ _).leads sound bound

/-- A declaration that was not refused is still known where it was entered. -/
theorem recorded_of_entry {state before after : Collected} {log : List Entry} {visits : List Visit}
    (walked : Walked before log visits after) (leads : Leads state after)
    (accepted : after.conflicts = []) {entry : Entry} (member : entry ∈ log)
    (since : Leads entry.after state) :
    ∃ binding, state.arena.binding? entry.home entry.name = some binding ∧
      Recorded entry.kind entry.ident binding := by
  obtain ⟨sound, bound⟩ := walked.ready entry member
  have none {first : Collected} (former : Leads first after) : first.conflicts = [] :=
    List.prefix_nil.mp (accepted ▸ former.conflicts)
  have still := since.trans leads
  have unchanged : entry.after.conflicts = entry.before.conflicts := by
    rw [none still, none ((Entry.leads sound bound).trans still)]
  obtain ⟨binding, known, recorded⟩ :=
    (declares_declare entry.before entry.id entry.kind entry.ident).recorded sound bound unchanged
  obtain ⟨kept, keptKnown, change⟩ := since.bindings _ _ _ known
  exact ⟨kept, keptKnown, recorded.kept change⟩

theorem name_of_declaring (member : site ∈ (ofProgram program).sites)
    (declaring : site.Declaring kind maker) : ∃ name, site.node.name? = some name := by
  have place : ∃ upper above, site.above = upper :: above ∧ site.node.slot.isName = true := by
    cases declaring with
    | declared slot path | functionName slot path | parameter slot path | caught slot path =>
        exact ⟨_, _, path, by rw [slot]; rfl⟩
  obtain ⟨upper, above, path, named⟩ := place
  obtain ⟨name, form⟩ := form_of_isName member path named
  exact ⟨name, by rw [Node.name?, form]⟩

/-- The scope that an entry was meant for is the same at the end. -/
theorem Entry.home_eq {entry : Entry} (member : entry ∈ (tour program).flatMap Visit.log) :
    (Resolution.collect (ofProgram program)).arena.home entry.kind entry.id = entry.home := by
  obtain ⟨sound, bound⟩ := (walked_tour program).ready entry member
  have leads := (Entry.leads sound bound).trans ((walked_tour program).still entry member)
  exact sound.home_eq leads.grows bound entry.kind

/-- If nothing is refused, every declaration is known in the scope that it is meant for. -/
theorem recorded_of_declaring
    (accepted : (Resolution.collect (ofProgram program)).conflicts = [])
    (member : site ∈ (ofProgram program).sites) (declaring : site.Declaring kind maker) :
    ∃ id name binding, (Resolution.collect (ofProgram program)).scopeOf[site.node.id]? = some id ∧
      id < (Resolution.collect (ofProgram program)).arena.size ∧ site.node.name? = some name ∧
      (Resolution.collect (ofProgram program)).arena.binding?
        ((Resolution.collect (ofProgram program)).arena.home kind id) name = some binding ∧
      Recorded kind site.node binding := by
  obtain ⟨name, named⟩ := name_of_declaring member declaring
  obtain ⟨visit, visitMember, -, entry, logged, rfl, same, place⟩ :=
    exists_entry_of_declaring member declaring
  have among := List.mem_flatMap_of_mem visitMember logged
  have walked := walked_tour program
  obtain ⟨binding, known, recorded⟩ :=
    recorded_of_entry walked (.refl _) accepted among (walked.still entry among)
  have name_eq : entry.name = name := by rw [Entry.name, same, named, Option.getD_some]
  rw [name_eq, ← Entry.home_eq among] at known
  obtain ⟨sound, bound⟩ := walked.ready entry among
  have larger := ((Entry.leads sound bound).trans (walked.still entry among)).grows.size_le
  exact ⟨entry.id, name, binding, place, Nat.lt_of_lt_of_le bound larger, named, known,
    same ▸ recorded⟩

/-- What the scopes know at the end was declared. -/
theorem declaring_of_binding {id : ScopeId} {name : String} {binding : Binding}
    (known : (Resolution.collect (ofProgram program)).arena.binding? id name = some binding) :
    ∃ site ∈ (ofProgram program).sites, ∃ maker scope, site.node = binding.ident ∧
      site.Declaring binding.kind maker ∧ site.node.name? = some name ∧
      (Resolution.collect (ofProgram program)).scopeOf[site.node.id]? = some scope ∧
      id = (Resolution.collect (ofProgram program)).arena.home binding.kind scope := by
  rcases (walked_tour program).origin id name binding known with early | ⟨entry, among, made⟩
  · rw [binding?_start] at early
    cases early
  · obtain ⟨rfl, rfl, rfl⟩ := made
    obtain ⟨visit, visitMember, logged⟩ := List.mem_flatMap.mp among
    obtain ⟨site, member, same, declaring, place⟩ := declaring_of_log visitMember logged
    obtain ⟨name, named⟩ := name_of_declaring member declaring
    refine ⟨site, member, _, entry.id, same, declaring, ?_, same ▸ place,
      (Entry.home_eq among).symm⟩
    rw [Entry.name, ← same, named, Option.getD_some]

/-- Parameters and caught variables belong to the scope that their function or handler opens. -/
theorem opening_of_inside {visit : Visit} {ident : Node} (item : (kind, ident) ∈ visit.inside) :
    kind = .param ∧ visit.opening? = some .hoist ∨
      kind = .caught ∧ visit.opening? = some .catch := by
  cases form : visit.part.label.node.form with
  | function _ =>
      simp only [Visit.inside, form] at item
      obtain ⟨_, -, same⟩ := List.mem_map.mp item
      cases same
      exact .inl ⟨rfl, by simp [Visit.opening?, opening, form]⟩
  | catchClause =>
      simp only [Visit.inside, form] at item
      obtain ⟨_, -, same⟩ := List.mem_map.mp item
      cases same
      exact .inr ⟨rfl, by simp [Visit.opening?, opening, form]⟩
  | _ => simp [Visit.inside, form] at item

theorem kind_of_outside {visit : Visit} {ident : Node} (item : (kind, ident) ∈ visit.outside) :
    kind ≠ .param ∧ kind ≠ .caught := by
  cases form : visit.part.label.node.form with
  | function _ =>
      simp only [Visit.outside, namesAround, form, List.mem_map] at item
      obtain ⟨_, -, same⟩ := item
      cases same
      decide
  | declaration declKind =>
      simp only [Visit.outside, namesAround, form, List.mem_map] at item
      obtain ⟨_, -, same⟩ := item
      obtain ⟨rfl, -⟩ := Prod.mk.inj same
      cases declKind <;> decide
  | _ => simp [Visit.outside, namesAround, form] at item

theorem scope_of_maker (member : site ∈ (ofProgram program).sites)
    (declaring : site.Declaring kind maker) (own : kind = .param ∨ kind = .caught) :
    ∃ id scope, (Resolution.collect (ofProgram program)).scopeOf[site.node.id]? = some id ∧
      (Resolution.collect (ofProgram program)).arena.get? id = some scope ∧
      scope.owner.node = maker ∧ (kind = .caught → scope.kind = .catch) := by
  obtain ⟨visit, visitMember, rfl, ⟨item, -⟩ | ⟨item, place⟩⟩ :=
    exists_visit_of_declaring member declaring
  · obtain ⟨notParam, notCaught⟩ := kind_of_outside item
    rcases own with isParam | isCaught
    · exact absurd isParam notParam
    · exact absurd isCaught notCaught
  · rcases opening_of_inside item with ⟨rfl, opens⟩ | ⟨rfl, opens⟩
    · obtain ⟨scope, found, -, owner, -⟩ := get?_visit visitMember opens
      exact ⟨visit.inner, scope, place, found, by rw [owner], by simp⟩
    · obtain ⟨scope, found, isCatch, owner, -⟩ := get?_visit visitMember opens
      exact ⟨visit.inner, scope, place, found, by rw [owner], fun _ => isCatch⟩

/-- A scope that hoists knows no caught variables. -/
theorem kind_of_hoists {id : ScopeId} {name : String} {binding : Binding}
    (hoists : (Resolution.collect (ofProgram program)).arena.hoists id = true)
    (known : (Resolution.collect (ofProgram program)).arena.binding? id name = some binding)
    (free : binding.kind.isBlockScoped = false) :
    binding.kind = .var ∨ binding.kind = .param ∨ binding.kind = .fun := by
  obtain ⟨site, member, maker, scope, -, declaring, -, place, rfl⟩ := declaring_of_binding known
  generalize kind_eq : binding.kind = kind at declaring hoists free ⊢
  cases declaring with
  | @declared _ _ _ declKind _ _ _ _ =>
      cases declKind with
      | var => exact .inl rfl
      | _ => cases free
  | functionName => exact .inr (.inr rfl)
  | parameter => exact .inr (.inl rfl)
  | caught slot path form =>
      obtain ⟨own, opened, placeToo, found, -, isCatch⟩ :=
        scope_of_maker member (.caught slot path form) (.inr rfl)
      obtain rfl := Option.some.inj (placeToo.symm.trans place)
      simp [Arena.home, Arena.hoists, found, isCatch rfl] at hoists

end Resolution.Collected

namespace Resolution

open Arena Outline

/-- The names that the scopes of a program know, and what its references find. -/
structure Tabled (outline : Outline) (resolution : Resolution) : Prop where
  blockScoped : ∀ site ∈ outline.sites, ∀ kind maker, site.Declaring kind maker →
    kind.isBlockScoped = true ∨ kind = .caught →
    ∃ scope name, resolution.scope? site.node = some scope ∧ site.node.name? = some name ∧
      resolution.arena.binding? scope name = some ⟨kind, site.node⟩
  hoisted : ∀ site ∈ outline.sites, ∀ maker, site.Declaring .var maker →
    ∃ scope name binding, resolution.scope? site.node = some scope ∧
      site.node.name? = some name ∧
      resolution.arena.binding? (resolution.arena.closestHoist scope) name = some binding ∧
      (binding.kind = .var ∨ binding.kind = .param ∨ binding.kind = .fun)
  parameters : ∀ site ∈ outline.sites, ∀ function, site.Declaring .param function →
    ∃ id scope name binding, resolution.scope? site.node = some id ∧
      resolution.arena.get? id = some scope ∧ scope.owner.node = function ∧
      site.node.name? = some name ∧ resolution.arena.binding? id name = some binding ∧
      (binding.kind = .param ∨ binding.kind = .fun)
  functions : ∀ site ∈ outline.sites, ∀ function, site.Declaring .fun function →
    ∃ scope name binding, resolution.scope? site.node = some scope ∧
      site.node.name? = some name ∧ resolution.arena.binding? scope name = some binding ∧
      binding.kind = .fun
  entries : ∀ id name binding, resolution.arena.binding? id name = some binding →
    ∃ site ∈ outline.sites, ∃ maker scope, site.node = binding.ident ∧
      site.Declaring binding.kind maker ∧ site.node.name? = some name ∧
      resolution.scope? site.node = some scope ∧ id = resolution.arena.home binding.kind scope
  references : ∀ site ∈ outline.sites, site.node.isReference = true →
    ∃ scope name ids, resolution.scope? site.node = some scope ∧ site.node.name? = some name ∧
      Way resolution.arena (some scope) ids ∧
      resolution.declaredIn? site.node =
        ids.find? fun id => (resolution.arena.binding? id name).isSome

theorem declares_eq_isSome (arena : Arena) (id : ScopeId) (name : String) :
    arena.declares id name = (arena.binding? id name).isSome := by
  rw [Bool.eq_iff_iff, declares_iff, Option.isSome_iff_exists]

/-- A reference is declared in the nearest scope around it that knows its name. -/
theorem declaredIn?_eq {program : Program} {site : Site}
    (member : site ∈ (ofProgram program).sites) (reference : site.node.isReference = true) :
    ∃ scope name ids, (ofOutline (ofProgram program)).scope? site.node = some scope ∧
      site.node.name? = some name ∧
      Way (ofOutline (ofProgram program)).arena (some scope) ids ∧
      (ofOutline (ofProgram program)).declaredIn? site.node =
        ids.find? fun id => ((ofOutline (ofProgram program)).arena.binding? id name).isSome := by
  have parts := reference
  simp only [Node.isReference, Bool.and_eq_true, beq_iff_eq] at parts
  obtain ⟨name, named⟩ := Option.isSome_iff_exists.mp parts.1
  obtain ⟨scope, ids, place, way, -⟩ :=
    (faithful_collect program).covered site member (by simp [parts.2])
  refine ⟨scope, name, ids, place, named, way, ?_⟩
  rw [declaredIn?_of_mem member, declaringScope?, if_pos reference, place, Option.bind_some,
    named, Option.getD_some, lookup, way.ancestors_eq]
  simp only [declares_eq_isSome]
  rfl

/-- A program without declarations against the rules: every declaration is known in the scope that
it is meant for, and nothing else is. -/
theorem tabled_of_no_conflicts (program : Program)
    (accepted : (ofOutline (ofProgram program)).conflicts = []) :
    Tabled (ofProgram program) (ofOutline (ofProgram program)) where
  blockScoped site member kind maker declaring own := by
    obtain ⟨id, name, binding, place, -, named, known, recorded⟩ :=
      recorded_of_declaring accepted member declaring
    refine ⟨id, name, place, named, ?_⟩
    cases kind with
    | «let» | «const» | caught =>
        rw [show binding = _ from recorded] at known
        exact known
    | _ => simp [BindingKind.isBlockScoped] at own
  hoisted site member maker declaring := by
    obtain ⟨id, name, binding, place, bound, named, known, recorded⟩ :=
      recorded_of_declaring accepted member declaring
    have hoists := (faithful_collect program).sound.hoists_closestHoist bound
    exact ⟨id, name, binding, place, named, known, kind_of_hoists hoists known recorded⟩
  parameters site member function declaring := by
    obtain ⟨id, name, binding, place, -, named, known, recorded⟩ :=
      recorded_of_declaring accepted member declaring
    obtain ⟨own, scope, placeToo, found, owner, -⟩ := scope_of_maker member declaring (.inl rfl)
    obtain rfl := Option.some.inj (placeToo.symm.trans place)
    exact ⟨own, scope, name, binding, place, found, owner, named, known, recorded⟩
  functions site member function declaring := by
    obtain ⟨id, name, binding, place, -, named, known, recorded⟩ :=
      recorded_of_declaring accepted member declaring
    exact ⟨id, name, binding, place, named, known, recorded⟩
  entries id name binding known := declaring_of_binding known
  references site member reference := declaredIn?_eq member reference

/-- A function that repeats a parameter and a `var`, and a handler with variables of its own. -/
theorem tabled_of_repeated_names : ∃ program, Program.ofText
      ("function f(a) \x7b var a; function a() \x7b\x7d \x7d " ++
        "try \x7b f; \x7d catch (e) \x7b let x = e; \x7d").toList = .ok program ∧
    (ofOutline (ofProgram program)).conflicts = [] ∧
    Tabled (ofProgram program) (ofOutline (ofProgram program)) := by
  have checked : ((Program.ofText
        ("function f(a) \x7b var a; function a() \x7b\x7d \x7d " ++
          "try \x7b f; \x7d catch (e) \x7b let x = e; \x7d").toList).toOption.any fun program =>
        (ofOutline (ofProgram program)).conflicts.isEmpty) = true := by
    decide +kernel
  generalize String.toList _ = source at checked ⊢
  obtain ⟨program, parsed, checked⟩ := Program.exists_of_any checked
  have accepted := List.isEmpty_iff.mp checked
  exact ⟨program, parsed, accepted, tabled_of_no_conflicts program accepted⟩

/-! ## Declarations by `var` across block scoped ones -/

/-- A variable declared by `var` whose way up to the scope that hoists it leads through a scope
with a block scoped declaration of the same name. -/
structure Crosses (outline : Outline) (resolution : Resolution) (hoisted lexical : Site)
    (hoistedMaker lexicalMaker : Node) (target : ScopeId) : Prop where
  declares : hoisted ∈ outline.sites ∧ hoisted.Declaring .var hoistedMaker
  declaresToo : lexical ∈ outline.sites ∧
    ∃ kind, lexical.Declaring kind lexicalMaker ∧ kind.isBlockScoped = true
  name : hoisted.node.name? = lexical.node.name?
  scope : resolution.scope? lexical.node = some target
  way : ∃ first below above, resolution.scope? hoisted.node = some first ∧
    Way resolution.arena (some first) (below ++ target :: above) ∧
    ∀ id ∈ below, resolution.arena.hoists id = false

section Crossing

variable {arena : Arena} {first target : ScopeId} {below above : List ScopeId}
  (sound : arena.Sound) (way : Way arena (some first) (below ++ target :: above))
  (passes : ∀ id ∈ below, arena.hoists id = false)

include sound way passes

theorem closestHoist_mem_of_passes : arena.closestHoist first ∈ target :: above := by
  have hoists := sound.hoists_closestHoist way.bound
  rcases List.mem_append.mp way.closestHoist_mem with early | late
  · rw [passes _ early] at hoists
    cases hoists
  · exact late

theorem mem_upToHoist : target ∈ upToHoist arena first := by
  rcases List.mem_cons.mp (closestHoist_mem_of_passes sound way passes) with same | later
  · rw [← same]
    exact closestHoist_mem_upToHoist arena first
  · -- No scope is twice on the way, so the way has not ended before the scope in question.
    have distinct := way.nodup
    rw [List.append_cons, List.nodup_append] at distinct
    apply List.mem_append_left
    rw [way.ancestors_eq, List.append_cons, List.takeWhile_append_of_pos]
    · simp
    · intro id member
      exact bne_iff_ne.mpr (distinct.2.2 id member _ later)

omit sound in
theorem closestHoist_eq_of_passes (hoists : arena.hoists target = true) :
    arena.closestHoist first = target := by
  have found : (below ++ target :: above).find? arena.hoists = some target := by
    rw [List.find?_append, List.find?_eq_none.mpr (by simpa using passes), Option.none_or,
      List.find?_cons_of_pos hoists]
  rw [closestHoist, way.ancestors_eq, found, Option.getD_some]

end Crossing

theorem conflicts_of_entries {program : Program} {lexical hoisted : Entry}
    (member : lexical ∈ (tour program).flatMap Collected.Visit.log)
    (memberToo : hoisted ∈ (tour program).flatMap Collected.Visit.log)
    (follows : Leads lexical.after hoisted.before) (blockScoped : lexical.kind.isBlockScoped = true)
    (isVar : hoisted.kind = .var) (same : lexical.name = hoisted.name)
    (passed : lexical.id ∈ upToHoist (collect (ofProgram program)).arena hoisted.id) :
    (collect (ofProgram program)).conflicts ≠ [] := by
  intro accepted
  have walked := walked_tour program
  obtain ⟨sound, bound⟩ := walked.ready hoisted memberToo
  have still := walked.still hoisted memberToo
  have leads := (Entry.leads sound bound).trans still
  obtain ⟨binding, known, recorded⟩ := recorded_of_entry walked leads accepted member follows
  rw [Entry.home, home_of_blockScoped _ blockScoped, same] at known
  obtain ⟨ids, way⟩ := sound.way hoisted.id bound
  rw [leads.grows.upToHoist_eq way] at passed
  have refused := conflicts_declare passed known (recorded.isBlockScoped blockScoped)
  rw [← isVar] at refused
  exact refused (List.prefix_nil.mp (accepted ▸ still.conflicts))

/-- A variable declared by `var` and a block scoped declaration of its name on its way are refused
together, if the block scoped one comes first or stands in the scope that hoists the variable. -/
theorem conflicts_of_crosses {program : Program} {hoisted lexical : Site}
    {hoistedMaker lexicalMaker : Node} {target : ScopeId}
    (crosses : Crosses (ofProgram program) (ofOutline (ofProgram program)) hoisted lexical
      hoistedMaker lexicalMaker target)
    (order : lexicalMaker.id < hoistedMaker.id ∨
      (ofOutline (ofProgram program)).arena.hoists target = true) :
    (ofOutline (ofProgram program)).conflicts ≠ [] := by
  intro accepted
  obtain ⟨⟨member, declares⟩, ⟨memberToo, kind, declaresToo, blockScoped⟩, sameName, scope, first,
    below, above, place, way, passes⟩ := crosses
  obtain ⟨name, named⟩ := name_of_declaring member declares
  have namedToo := sameName.symm.trans named
  have sound := (faithful_collect program).sound
  rcases order with earlier | hoists
  · obtain ⟨visit, visited, rfl, entry, logged, isVar, ident, placeVar⟩ :=
      exists_entry_of_declaring member declares
    obtain ⟨visitLex, visitedLex, rfl, entryLex, loggedLex, rfl, identLex, placeLex⟩ :=
      exists_entry_of_declaring memberToo declaresToo
    obtain rfl : first = entry.id := Option.some.inj (place.symm.trans placeVar)
    obtain rfl : target = entryLex.id := Option.some.inj (scope.symm.trans placeLex)
    have follows := leads_of_id_lt visitedLex visited earlier entryLex loggedLex entry logged
    have same : entryLex.name = entry.name := by
      rw [Entry.name, Entry.name, ident, identLex, named, namedToo]
    exact conflicts_of_entries (List.mem_flatMap_of_mem visitedLex loggedLex)
      (List.mem_flatMap_of_mem visited logged) follows blockScoped isVar same
      (mem_upToHoist sound way passes) accepted
  · -- The scope that hoists would know the name in two ways.
    obtain ⟨id, nameVar, binding, placeVar, -, namedVar, known, recorded⟩ :=
      recorded_of_declaring accepted member declares
    obtain ⟨idLex, nameLex, bindingLex, placeLex, -, namedLex, knownLex, recordedLex⟩ :=
      recorded_of_declaring accepted memberToo declaresToo
    obtain rfl : first = id := Option.some.inj (place.symm.trans placeVar)
    obtain rfl : target = idLex := Option.some.inj (scope.symm.trans placeLex)
    obtain rfl : name = nameVar := Option.some.inj (named.symm.trans namedVar)
    obtain rfl : name = nameLex := Option.some.inj (namedToo.symm.trans namedLex)
    have home : (collect (ofProgram program)).arena.home .var first = target :=
      closestHoist_eq_of_passes way passes hoists
    rw [home] at known
    rw [home_of_blockScoped _ blockScoped, known] at knownLex
    have lexical := recordedLex.isBlockScoped blockScoped
    rw [← Option.some.inj knownLex,
      show binding.kind.isBlockScoped = false from recorded] at lexical
    cases lexical

theorem declaring_of_forms {site : Site} {kind : DeclKind} {id : Nat}
    (slot : site.node.slot = .declared)
    (forms : (site.above.take 2).map (·.form) = [.declarator, .declaration kind])
    (place : site.above[1]?.map (·.id) = some id) :
    ∃ maker, site.Declaring (.ofDecl kind) maker ∧ maker.id = id := by
  obtain ⟨node, above⟩ := site
  match above with
  | [] | [_] => simp at forms
  | declarator :: declaration :: rest =>
      simp only [List.take_succ_cons, List.take_zero, List.map_cons, List.map_nil, List.cons.injEq,
        and_true] at forms
      exact ⟨declaration, .declared slot rfl forms.1 forms.2, by simpa using place⟩

/-- Whether a variable declared by `var` crosses one declared by `let`, with the numbers of the two
declarations and the scopes between them. -/
def crossing (program : Program) (hoisted lexical : Site) (makers : Nat × Nat)
    (first target : ScopeId) (below above : List ScopeId) : Bool :=
  let resolution := ofOutline (ofProgram program)
  hoisted.node.slot == .declared && lexical.node.slot == .declared &&
  (hoisted.above.take 2).map (·.form) == [.declarator, .declaration .var] &&
  (lexical.above.take 2).map (·.form) == [.declarator, .declaration .let] &&
  hoisted.above[1]?.map (·.id) == some makers.1 && lexical.above[1]?.map (·.id) == some makers.2 &&
  hoisted.node.name? == lexical.node.name? &&
  resolution.scope? hoisted.node == some first && resolution.scope? lexical.node == some target &&
  resolution.arena.ancestors first == below ++ target :: above &&
  below.all (!resolution.arena.hoists ·)

theorem exists_crosses {source : List Char} {places makers : Nat × Nat} {first target : ScopeId}
    {below above : List ScopeId} {test : Resolution → Bool}
    (checked : ((Program.ofText source).toOption.any fun program =>
        test (ofOutline (ofProgram program)) &&
        (ofProgram program).sites[places.1]?.any fun hoisted =>
          (ofProgram program).sites[places.2]?.any fun lexical =>
            crossing program hoisted lexical makers first target below above) = true) :
    ∃ program hoisted lexical hoistedMaker lexicalMaker, Program.ofText source = .ok program ∧
      Crosses (ofProgram program) (ofOutline (ofProgram program)) hoisted lexical hoistedMaker
        lexicalMaker target ∧
      hoistedMaker.id = makers.1 ∧ lexicalMaker.id = makers.2 ∧
      test (ofOutline (ofProgram program)) = true := by
  obtain ⟨program, parsed, checked⟩ := Program.exists_of_any checked
  simp only [Bool.and_eq_true, Option.any_eq_true, crossing, beq_iff_eq, List.all_eq_true,
    Bool.not_eq_true'] at checked
  obtain ⟨passed, hoisted, found, lexical, foundToo, known⟩ := checked
  obtain ⟨⟨⟨⟨⟨⟨⟨⟨⟨⟨slot, slotToo⟩, forms⟩, formsToo⟩, place⟩, placeToo⟩, name⟩, scope⟩, scopeToo⟩,
    chain⟩, passes⟩ := known
  obtain ⟨hoistedMaker, declares, number⟩ := declaring_of_forms slot forms place
  obtain ⟨lexicalMaker, declaresToo, numberToo⟩ := declaring_of_forms slotToo formsToo placeToo
  have member := List.mem_of_getElem? found
  have memberToo := List.mem_of_getElem? foundToo
  obtain ⟨id, ids, at_, way, -⟩ :=
    (faithful_collect program).covered hoisted member (by simp [slot])
  obtain rfl : first = id := Option.some.inj (scope.symm.trans at_)
  obtain rfl : ids = below ++ target :: above := way.ancestors_eq.symm.trans chain
  exact ⟨program, hoisted, lexical, hoistedMaker, lexicalMaker, parsed,
    ⟨⟨member, declares⟩, ⟨memberToo, _, declaresToo, rfl⟩, name, scopeToo, first, below, above,
      scope, way, passes⟩, number, numberToo, passed⟩

/-- The block scoped variable comes first. -/
theorem conflicts_of_crosses_block : ∃ program hoisted lexical hoistedMaker lexicalMaker,
    Program.ofText "\x7b let x; \x7b var x; \x7d \x7d".toList = .ok program ∧
    Crosses (ofProgram program) (ofOutline (ofProgram program)) hoisted lexical hoistedMaker
      lexicalMaker 1 ∧
    lexicalMaker.id < hoistedMaker.id ∧ (ofOutline (ofProgram program)).conflicts ≠ [] := by
  have checked : ((Program.ofText "\x7b let x; \x7b var x; \x7d \x7d".toList).toOption.any
        fun program =>
        (fun _ => true) (ofOutline (ofProgram program)) &&
        (ofProgram program).sites[8]?.any fun hoisted =>
          (ofProgram program).sites[4]?.any fun lexical =>
            crossing program hoisted lexical (6, 2) 2 1 [2] [0]) = true := by
    decide +kernel
  generalize String.toList _ = source at checked ⊢
  obtain ⟨program, hoisted, lexical, hoistedMaker, lexicalMaker, parsed, crosses, number,
      numberToo, -⟩ :=
    @exists_crosses source (8, 4) (6, 2) 2 1 [2] [0] (fun _ => true) checked
  have order : lexicalMaker.id < hoistedMaker.id := by
    rw [number, numberToo]
    decide
  exact ⟨program, hoisted, lexical, hoistedMaker, lexicalMaker, parsed, crosses, order,
    conflicts_of_crosses crosses (.inl order)⟩

/-- The block scoped variable comes last, in a block of its own: nothing is refused. -/
theorem no_conflicts_of_crosses_later : ∃ program hoisted lexical hoistedMaker lexicalMaker,
    Program.ofText "\x7b var x; let x; \x7d".toList = .ok program ∧
    Crosses (ofProgram program) (ofOutline (ofProgram program)) hoisted lexical hoistedMaker
      lexicalMaker 1 ∧
    (ofOutline (ofProgram program)).conflicts = [] := by
  have checked : ((Program.ofText "\x7b var x; let x; \x7d".toList).toOption.any fun program =>
        (fun resolution => resolution.conflicts.isEmpty)
          (ofOutline (ofProgram program)) &&
        (ofProgram program).sites[4]?.any fun hoisted =>
          (ofProgram program).sites[7]?.any fun lexical =>
            crossing program hoisted lexical (2, 5) 1 1 [] [0]) = true := by
    decide +kernel
  generalize String.toList _ = source at checked ⊢
  obtain ⟨program, hoisted, lexical, hoistedMaker, lexicalMaker, parsed, crosses, -, -, accepted⟩ :=
    @exists_crosses source (4, 7) (2, 5) 1 1 [] [0] (fun resolution => resolution.conflicts.isEmpty)
      checked
  exact ⟨program, hoisted, lexical, hoistedMaker, lexicalMaker, parsed, crosses,
    List.isEmpty_iff.mp accepted⟩

end Resolution

end LoopCapture
