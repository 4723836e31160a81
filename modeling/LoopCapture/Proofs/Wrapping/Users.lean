import LoopCapture.Proofs.Scope.Declarations
import LoopCapture.Proofs.Wrapping.Hindrances
import LoopCapture.Proofs.Wrapping.References
import LoopCapture.Proofs.Wrapping.Stable

/-!
# Users of the declarations in a wrapped body

A wrapped body becomes the body of a function, and what it declares cannot be seen from outside any
more. A block has kept its declarations to itself all along, except for variables declared by `var`,
which are an obstacle to wrapping. A body that is not a block may declare names for the scope around
the loop. No other declaration of a wrapped body has users outside of it.
-/

set_option autoImplicit false

namespace LoopCapture

open Arena Outline Resolution Resolution.Collected

namespace Outline

mutual

/-- The declarations of a tree that belong to the scope around it. -/
def exports : Outline → List (BindingKind × Node)
  | .node site children => namesAround (.node site children) ++
      if (opening site children).isSome then [] else exportsAll children

def exportsAll : List Outline → List (BindingKind × Node)
  | [] => []
  | tree :: rest => exports tree ++ exportsAll rest

end

theorem namesAround_subset (part : Outline) : namesAround part ⊆ part.exports := by
  obtain ⟨site, children⟩ := part
  exact List.subset_append_left _ _

theorem exports_subset_exportsAll {child : Outline} {trees : List Outline} (among : child ∈ trees) :
    child.exports ⊆ exportsAll trees := by
  induction trees with
  | nil => cases among
  | cons tree trees ih =>
      rcases List.mem_cons.mp among with rfl | later
      · exact List.subset_append_left _ _
      · exact List.subset_append_of_subset_right _ (ih later)

theorem exports_subset_of_child {part child : Outline} (among : child ∈ part.children)
    (closed : opening part.label part.children = none) : child.exports ⊆ part.exports := by
  obtain ⟨site, children⟩ := part
  simp only [Tree.label, Tree.children] at among closed
  rw [exports, closed]
  exact List.subset_append_of_subset_right _ (exports_subset_exportsAll among)

theorem exports_of_block {body : Outline} (form : body.label.node.form = .block)
    (slot : body.label.node.slot ≠ .functionBody) : body.exports = [] := by
  obtain ⟨site, children⟩ := body
  simp only [Tree.label] at form slot
  simp [exports, namesAround, opening, Tree.label, form, slot]

end Outline

/-! ## Declarations inside a part of a program -/

section Inside

variable {program : Program} {whole : Outline}

theorem exports_of_named {part : Outline} (inside : part ∈ (ofProgram program).subtrees)
    (named : part.label.node.slot = .functionName) : part.exports = [] := by
  obtain ⟨name, form⟩ := form_of_named inside named
  have leaf : part.children = [] := by
    apply List.eq_nil_iff_forall_not_mem.mpr
    intro child among
    exact unnamed_of_child inside among named
  obtain ⟨site, children⟩ := part
  simp only [Tree.children] at leaf
  simp only [Tree.label] at form
  simp [exports, exportsAll, namesAround, opening, Tree.label, form, leaf]

/-- A part of a tree stands in a scope that belongs to the tree, or what it declares for the scope
around it is what the tree declares for the scope around it. -/
theorem owned_or_exported (inside : whole ∈ (ofProgram program).subtrees)
    (visited : ∃ visit ∈ tour program, visit.part = whole) : ∀ part ∈ whole.subtrees,
    ∃ visit ∈ tour program, visit.part = part ∧
      ((∃ scope, (Resolution.collect (ofProgram program)).arena.get? visit.outer = some scope ∧
          whole.label.path <:+ scope.owner.path) ∨
        exports part ⊆ exports whole) := by
  refine Tree.forall_subtrees ?_ ?_
  · obtain ⟨visit, member, same⟩ := visited
    exact ⟨visit, member, same, .inr (List.Subset.refl _)⟩
  · rintro part within ⟨visit, member, rfl, known⟩ child among
    have partInside := Tree.subtrees_subset inside within
    obtain ⟨below, belowMember, rfl, outer⟩ := exists_visitAll_child member child among
    refine ⟨below, belowMember, rfl, ?_⟩
    by_cases named : below.part.label.node.slot = .functionName
    · rw [if_pos named] at outer
      rw [outer]
      refine known.imp_right fun _ => ?_
      rw [exports_of_named (Tree.child_mem_subtrees partInside among) named]
      exact List.nil_subset _
    · rw [if_neg named] at outer
      cases opens : visit.opening? with
      | none =>
          rw [outer, Visit.inner_of_closed opens]
          exact known.imp_right (List.Subset.trans (exports_subset_of_child among opens))
      | some kind =>
          obtain ⟨scope, found, -, owner, -⟩ := get?_visit member opens
          rw [outer]
          refine .inl ⟨scope, found, ?_⟩
          rw [owner]
          exact ((rooted_ofProgram program).subtree inside).path_suffix
            (label_mem_sites within)

/-- A variable declared by `var` under a function belongs to a scope of that function or of a part
of it. -/
theorem closestHoist_of_function {part : Outline} (inside : part ∈ (ofProgram program).subtrees)
    (unnamed : part.label.node.slot ≠ .functionName) {id : ScopeId}
    (place : (Resolution.collect (ofProgram program)).scopeOf[part.label.node.id]? = some id)
    {function : Node} {above : List Node} (isFunction : function.isFunction = true)
    (suffix : function :: above <:+ part.label.path) :
    ∃ scope, (Resolution.collect (ofProgram program)).arena.get?
        ((Resolution.collect (ofProgram program)).arena.closestHoist id) = some scope ∧
      function :: above <:+ scope.owner.path := by
  have faithful := faithful_collect program
  obtain ⟨same, ids, placed, way, covers⟩ := covered_collect part inside unnamed
  obtain rfl := Option.some.inj (place.symm.trans placed)
  obtain ⟨inner, among, scope, found, owner⟩ := covers.function suffix isFunction
  have hoists : (Resolution.collect (ofProgram program)).arena.hoists inner = true := by
    obtain ⟨owning, -, owns⟩ := faithful.owned inner (get?_lt found)
    obtain ⟨again, foundToo, ownerToo, kind⟩ := owns.scope
    obtain rfl := Option.some.inj (foundToo.symm.trans found)
    rw [owner] at ownerToo
    have opened : opening owning.label owning.children = some .hoist := by
      rw [← ownerToo]
      cases form : function.form with
      | function _ => simp [opening, form]
      | _ => simp [Node.isFunction, Form.isFunction, form] at isFunction
    simp [Arena.hoists, found, kind, opened]
  obtain ⟨nearest, nearestFound⟩ : ∃ nearest,
      ids.find? (Resolution.collect (ofProgram program)).arena.hoists = some nearest :=
    Option.isSome_iff_exists.mp (List.find?_isSome.mpr ⟨inner, among, hoists⟩)
  have closest : (Resolution.collect (ofProgram program)).arena.closestHoist id = nearest := by
    rw [closestHoist, way.ancestors_eq, nearestFound, Option.getD_some]
  obtain ⟨-, before, after, split, passed⟩ := List.find?_eq_some_iff_append.mp nearestFound
  have beyond : inner ∈ nearest :: after := by
    rw [split] at among
    rcases List.mem_append.mp among with early | late
    · have plain := passed inner early
      rw [hoists] at plain
      cases plain
    · exact late
  have further := way.from_suffix ⟨before, split.symm⟩
  obtain ⟨around, foundAround⟩ := get?_of_lt further.bound
  refine ⟨around, closest ▸ foundAround, ?_⟩
  have upper := (lexical_ofOutline program).way_suffix further rfl foundAround beyond found
  rwa [owner] at upper

end Inside

/-! ## Declarations inside the body of a loop -/

theorem exists_function_around {body : Outline} {site : Site}
    (suffix : body.label.path <:+ site.path) (covered : ¬ Obstacle.Open (body.around site)) :
    ∃ function above, function.isFunction = true ∧ function :: above <:+ site.path ∧
      body.label.path <:+ function :: above := by
  obtain ⟨inner, split⟩ : ∃ inner, site.above = inner ++ body.label.above := by
    obtain ⟨before, whole⟩ := suffix
    cases before with
    | nil => exact ⟨[], (List.cons.inj whole).2.symm⟩
    | cons first before =>
        have rest : before ++ body.label.path = site.above := (List.cons.inj whole).2
        refine ⟨before ++ [body.label.node], ?_⟩
        rw [← rest, Site.path, List.append_assoc, List.singleton_append]
  simp only [Obstacle.Open, Obstacle.around_eq split, not_forall, Bool.not_eq_false] at covered
  obtain ⟨function, among, isFunction⟩ := covered
  obtain ⟨before, after, rfl⟩ := List.append_of_mem among
  have onPath : function :: (after ++ body.label.above) <:+ site.path := by
    refine List.IsSuffix.trans ⟨before, ?_⟩ (List.suffix_cons _ _)
    rw [split, List.append_assoc, List.cons_append]
  refine ⟨function, _, isFunction, onPath, List.suffix_of_suffix_length_le suffix onPath ?_⟩
  simp only [Site.path, List.length_cons, List.length_append]
  omega

theorem form_of_var {part : Outline} {ident : Node} (item : (.var, ident) ∈ namesAround part) :
    part.label.node.form = .declaration .var := by
  cases form : part.label.node.form with
  | declaration kind =>
      simp only [namesAround, form, List.mem_map, Prod.mk.injEq] at item
      obtain ⟨_, -, isVar, -⟩ := item
      cases kind with
      | var => rfl
      | _ => cases isVar
  | function kind => simp [namesAround, form] at item
  | _ => simp [namesAround, form] at item

section Body

variable {program : Program} (regular : Regular (ofProgram program)) {loop body : Outline}
  (inside : loop ∈ (ofProgram program).subtrees) (bodied : loop.loopBody? = some body)

include regular inside bodied

/-- With an identifier the node that declares it lies in the body. -/
theorem suffix_of_declaring {site : Site} (member : site ∈ body.sites) {kind : BindingKind}
    {maker : Node} (declaring : site.Declaring kind maker) :
    ∃ above, body.label.path <:+ maker :: above ∧ maker :: above <:+ site.path := by
  obtain ⟨bodyInside, upper, slot, isLoop, -⟩ := regular.body inside bodied
  have suffix := List.suffix_cons_iff.mp (regular.path_suffix bodyInside member)
  have below (different : site.node.slot ≠ .loopBody) : body.label.path <:+ site.above := by
    rcases suffix with same | further
    · rw [← (List.cons.inj same).1] at different
      exact absurd slot different
    · exact further
  cases declaring with
  | @declared declarator _ above kind place path _ form =>
      have further := below (by simp [place])
      rw [path, List.suffix_cons_iff] at further
      have upward : maker :: above <:+ site.path := by
        rw [Site.path, path]
        exact (List.suffix_cons _ _).trans (List.suffix_cons _ _)
      refine ⟨above, ?_, upward⟩
      rcases further with same | further
      · -- A loop would be a declaration.
        rw [Site.path, upper] at same
        have isDeclaration : loop.label.node = maker := (List.cons.inj (List.cons.inj same).2).1
        rw [isDeclaration] at isLoop
        simp [Node.isLoop, Form.isLoop, form] at isLoop
      · exact further
  | @functionName _ above _ place path | @parameter _ above _ place path
  | @caught _ above place path =>
      have further := below (by simp [place])
      rw [path] at further
      exact ⟨above, further, by rw [Site.path, path]; exact List.suffix_cons _ _⟩

omit inside bodied in
/-- A body without obstacles has functions of its own around its variables declared by `var`. -/
theorem hoisted_inside (bodyInside : body ∈ (ofProgram program).subtrees)
    (free : body.obstacle? = none) {visit : Collected.Visit} (visited : visit ∈ tour program)
    (within : visit.part ∈ body.subtrees) {ident : Node} (item : (.var, ident) ∈ visit.outside) :
    ∃ scope, (ofOutline (ofProgram program)).arena.get?
        ((ofOutline (ofProgram program)).arena.closestHoist visit.outer) = some scope ∧
      body.label.path <:+ scope.owner.path := by
  have partInside := part_mem_subtrees visited
  have form := form_of_var item
  have member := label_mem_sites within
  have closed : visit.opening? = none := by simp [Visit.opening?, opening, form]
  have unnamed : visit.part.label.node.slot ≠ .functionName := by
    intro named
    obtain ⟨name, isName⟩ := form_of_named partInside named
    rw [form] at isName
    cases isName
  have rooted := (rooted_ofProgram program).subtree bodyInside
  have harmless := (Obstacle.first_obstacle? rooted).eq_none_iff.mp free _ member .var
  obtain ⟨function, above, isFunction, onPath, beyond⟩ :=
    exists_function_around (regular.path_suffix bodyInside member)
      fun isOpen => harmless ⟨isOpen, form⟩
  have placed := scopeOf_visit visited
  rw [Visit.inner_of_closed closed] at placed
  obtain ⟨scope, found, upwards⟩ :=
    closestHoist_of_function partInside unnamed placed isFunction onPath
  exact ⟨scope, found, beyond.trans upwards⟩

/-- A body without obstacles: what it declares belongs to scopes of its own or to the scope around
it. -/
theorem exported_of_declared (free : body.obstacle? = none) {id : ScopeId} {name : String}
    {binding : Binding} {scope : Scope}
    (known : (ofOutline (ofProgram program)).arena.binding? id name = some binding)
    (found : (ofOutline (ofProgram program)).arena.get? id = some scope)
    (outside : ¬ body.label.path <:+ scope.owner.path) {site : Site} (member : site ∈ body.sites)
    (same : site.node = binding.ident) :
    (binding.kind, binding.ident) ∈ body.exports ∧ binding.kind ≠ .var := by
  obtain ⟨bodyInside, -, slot, -⟩ := regular.body inside bodied
  -- No scope of the body is the one in question.
  have other {inner : ScopeId} {own : Scope}
      (ownFound : (ofOutline (ofProgram program)).arena.get? inner = some own)
      (below : body.label.path <:+ own.owner.path) : inner ≠ id := by
    rintro rfl
    rw [found] at ownFound
    exact outside (Option.some.inj ownFound ▸ below)
  rcases (walked_tour program).origin id name binding known with
    early | ⟨entry, logged, rfl, -, home⟩
  · rw [binding?_start] at early
    cases early
  rw [← Entry.home_eq logged] at home
  obtain ⟨visit, visited, among⟩ := List.mem_flatMap.mp logged
  obtain ⟨again, againMember, node, declaring, place⟩ := declaring_of_log visited among
  obtain rfl : again = site :=
    regular.eq_of_id againMember (Tree.preorder_subset bodyInside member) (by rw [node, same])
  obtain ⟨above, further, onPath⟩ := suffix_of_declaring regular inside bodied member declaring
  have partInside := part_mem_subtrees visited
  have label : (⟨visit.part.label.node, above⟩ : Site) = visit.part.label :=
    regular.eq_of_id (regular.mem_of_suffix againMember onPath) (label_mem_sites partInside) rfl
  have suffix : body.label.path <:+ visit.part.label.path := label ▸ further
  have within := regular.mem_subtrees_of_suffix bodyInside partInside suffix
  rcases List.mem_append.mp among with item | item
  · obtain ⟨outer, item⟩ := mem_entries item
    by_cases isVar : entry.kind = .var
    · rw [isVar] at item home
      obtain ⟨own, ownFound, below⟩ := hoisted_inside regular bodyInside free visited within item
      exact absurd (home.trans (congrArg _ outer)).symm (other ownFound below)
    · have here : id = entry.id := home.trans (if_neg isVar)
      have seen :=
        exists_visit_below inside (List.mem_of_find?_eq_some bodied) (by simp [slot])
      obtain ⟨bodyVisit, bodyMember, bodyPart, -⟩ := seen
      obtain ⟨twin, twinMember, part, known⟩ :=
        owned_or_exported bodyInside ⟨bodyVisit, bodyMember, bodyPart⟩ visit.part within
      have twinItem : (entry.kind, entry.ident) ∈ twin.outside := by
        rw [Visit.outside, part]
        exact item
      obtain ⟨-, -, -, -, twinPlace⟩ := declaring_of_outside twinMember twinItem
      have twinOuter : twin.outer = id :=
        (Option.some.inj (twinPlace.symm.trans place)).trans here.symm
      rcases known with ⟨own, ownFound, below⟩ | exported
      · exact absurd twinOuter (other ownFound below)
      · exact ⟨exported (namesAround_subset _ item), isVar⟩
  · obtain ⟨inner, item⟩ := mem_entries item
    obtain ⟨kind, opens, notVar⟩ : ∃ kind, visit.opening? = some kind ∧ entry.kind ≠ .var := by
      rcases opening_of_inside item with ⟨isParam, opens⟩ | ⟨isCaught, opens⟩
      · exact ⟨_, opens, by simp [isParam]⟩
      · exact ⟨_, opens, by simp [isCaught]⟩
    obtain ⟨own, ownFound, -, owner, -⟩ := get?_visit visited opens
    have here : visit.inner = id := (home.trans ((if_neg notVar).trans inner)).symm
    exact absurd here (other ownFound (by rw [owner]; exact suffix))

end Body

/-! ## Wrapped loops -/

/-- The declared name that a reference stands for. -/
def Resolution.referent? (resolution : Resolution) (node : Node) : Option Binding :=
  (resolution.declaredIn? node).bind fun id => node.name?.bind (resolution.arena.binding? id)

theorem Resolution.referent?_eq_some {resolution : Resolution} {node : Node} {binding : Binding} :
    resolution.referent? node = some binding ↔ ∃ id, resolution.declaredIn? node = some id ∧
      ∃ name, node.name? = some name ∧ resolution.arena.binding? id name = some binding := by
  simp only [referent?, Option.bind_eq_some_iff]

namespace Compilation

/-- A wrapped loop has a body without obstacles. -/
theorem body_of_rewritten {file : Option String} {source : String} {result : Compilation}
    {program : Program} (compiled : compile ⟨.wrap⟩ file source = .ok result)
    (parsed : Program.ofText source.toList = .ok program)
    (resolved : (Resolution.ofOutline (.ofProgram program)).conflicts = []) {loop : Outline}
    (inside : loop ∈ (Outline.ofProgram program).subtrees)
    (rewritten : loop.label.node ∈ result.rewritten) :
    ∃ body, loop.loopBody? = some body ∧ body.obstacle? = none := by
  obtain ⟨other, final, again, last, -, -, -, wrapped, -⟩ :=
    compile_outcome parsed resolved .wrap file
  obtain rfl : result = other := Except.ok.inj (compiled.symm.trans again)
  simp only [Compilation.rewritten, last, List.mem_filterMap, Option.map_eq_some_iff] at rewritten
  obtain ⟨id, among, part, found, same⟩ := rewritten
  have number : loop.label.node.id = id := by
    rw [← same]
    exact beq_iff_eq.mp (Tree.find?_eq_some found).2
  rw [wrapped, Wrapping.mem_wrappedLoops] at among
  obtain ⟨capture, -, wraps, isId⟩ := among
  simp only [Wrapping.Capture.wraps, Bool.and_eq_true, Option.any_eq_true,
    Option.bind_eq_some_iff] at wraps
  obtain ⟨-, body, ⟨twin, twinFound, bodied⟩, free⟩ := wraps
  obtain ⟨twinInside, numbered⟩ := Tree.find?_eq_some twinFound
  have twinNumber : twin.label.node.id = capture.loop.id := beq_iff_eq.mp numbered
  obtain rfl : twin = loop := (regular_of_ofText parsed).subtree_eq_of_id twinInside inside
    (twinNumber.trans (isId.trans number.symm))
  exact ⟨body, bodied, Option.isNone_iff_eq_none.mp free⟩

/-- The declarations of a wrapped body have no users outside of it, unless the body is not a block
and declares them for the scope around it. -/
theorem users_of_wrapped {file : Option String} {source output : String} {result : Compilation}
    (compiled : compile ⟨.wrap⟩ file source = .ok result) (present : result.output = some output) :
    ∃ program, Program.ofText source.toList = .ok program ∧
      ∀ loop ∈ (Outline.ofProgram program).subtrees, loop.label.node ∈ result.rewritten →
      ∃ body, loopBody? loop = some body ∧
        ∀ site ∈ (Outline.ofProgram program).sites, site ∉ body.sites →
        ∀ binding, (Resolution.ofOutline (.ofProgram program)).referent? site.node = some binding →
        ∀ inner ∈ body.sites, inner.node = binding.ident →
          body.label.node.form ≠ .block ∧ (binding.kind, binding.ident) ∈ body.exports ∧
            binding.kind ≠ .var := by
  obtain ⟨program, parsed, resolved⟩ := exists_program_of_output compiled present
  refine ⟨program, parsed, fun loop inside rewritten => ?_⟩
  have regular := regular_of_ofText parsed
  obtain ⟨body, bodied, free⟩ := body_of_rewritten compiled parsed resolved inside rewritten
  obtain ⟨bodyInside, -, slot, -⟩ := regular.body inside bodied
  refine ⟨body, bodied, fun site member outside binding refers inner innerMember same => ?_⟩
  obtain ⟨id, declared, name, -, known⟩ := referent?_eq_some.mp refers
  obtain ⟨-, -, -, -, unnamed, -⟩ := exists_way_ofOutline member declared
  obtain ⟨first, ids, -, way, covers, among⟩ :=
    (grounded_ofOutline program).covered site member unnamed
  obtain ⟨scope, found, suffix⟩ := covers.owner (among id declared)
  have apart : ¬ body.label.path <:+ scope.owner.path := by
    intro below
    obtain ⟨part, partInside, rfl⟩ := exists_subtree member
    exact outside (label_mem_sites
      (regular.mem_subtrees_of_suffix bodyInside partInside (below.trans suffix)))
  obtain ⟨exported, notVar⟩ :=
    exported_of_declared regular inside bodied free known found apart innerMember same
  refine ⟨fun block => ?_, exported, notVar⟩
  rw [exports_of_block block (by simp [slot])] at exported
  cases exported

/-- A use of a declared name outside the body of a wrapped loop. -/
structure UsedOutside (source : String) (loop body : Outline) (binding : Binding) : Prop where
  compiled : ∃ result output, compile ⟨.wrap⟩ none source = .ok result ∧
    result.output = some output ∧ loop.label.node ∈ result.rewritten
  used : ∃ program, Program.ofText source.toList = .ok program ∧
    loop ∈ (Outline.ofProgram program).subtrees ∧ loopBody? loop = some body ∧
    ∃ site ∈ (Outline.ofProgram program).sites, site ∉ body.sites ∧
      (Resolution.ofOutline (.ofProgram program)).referent? site.node = some binding

theorem exists_usedOutside {source : String} {number place : Nat} {test : Outline → Binding → Bool}
    (checked : (match Program.ofText source.toList, compile ⟨.wrap⟩ none source with
      | .ok program, .ok result => result.output.isSome &&
        ((Outline.ofProgram program).subtree? number).any fun loop =>
          decide (loop.label.node ∈ result.rewritten) && (loopBody? loop).any fun body =>
            (Outline.ofProgram program).sites[place]?.any fun site =>
              decide (site ∉ body.sites) &&
                ((Resolution.ofOutline (.ofProgram program)).referent? site.node).any (test body)
      | _, _ => false) = true) :
    ∃ loop body binding, UsedOutside source loop body binding ∧ test body binding = true := by
  split at checked
  · rename_i program result parsed compiled
    simp only [Bool.and_eq_true, Option.any_eq_true, decide_eq_true_eq] at checked
    obtain ⟨present, loop, found, rewritten, body, bodied, site, indexed, outside, binding, refers,
      passed⟩ := checked
    obtain ⟨output, shown⟩ := Option.isSome_iff_exists.mp present
    exact ⟨loop, body, binding, ⟨⟨result, output, compiled, shown, rewritten⟩, program, parsed,
      (Tree.find?_eq_some found).1, bodied, site, List.mem_of_getElem? indexed, outside, refers⟩,
      passed⟩
  · cases checked

/-- A variable that closures of a loop are stored in. -/
theorem users_of_wrapped_block : ∃ loop body binding,
    UsedOutside "let f; while (0) \x7b let k; f = () => k; \x7d f;" loop body binding ∧
    ∀ inner ∈ body.sites, inner.node ≠ binding.ident := by
  obtain ⟨source, text⟩ : ∃ source, source =
    "let f; while (0) \x7b let k; f = () => k; \x7d f;" := ⟨_, rfl⟩
  have used := @exists_usedOutside source 4 16 (fun body _ => body.label.node.form == .block)
    (by rw [text]; decide +kernel)
  rw [← text]
  obtain ⟨loop, body, binding, used, block⟩ := used
  refine ⟨loop, body, binding, used, fun inner member same => ?_⟩
  obtain ⟨⟨result, output, compiled, present, rewritten⟩, program, parsed, inside, bodied, site,
    siteMember, outside, refers⟩ := used
  obtain ⟨again, parsedToo, users⟩ := users_of_wrapped compiled present
  obtain rfl : program = again := Except.ok.inj (parsed.symm.trans parsedToo)
  obtain ⟨bodyToo, bodiedToo, known⟩ := users loop inside rewritten
  obtain rfl : body = bodyToo := Option.some.inj (bodied.symm.trans bodiedToo)
  exact (known site siteMember outside binding refers inner member same).1 (beq_iff_eq.mp block)

/-- The branch of an `if` that is the body of a loop declares a variable for the scope around the
loop, which is wrapped nevertheless. -/
theorem user_of_wrapped_branch : ∃ loop body binding, UsedOutside
      ("let n = 2; while (n--) if (n) let j = n; else \x7b let k = n; () => k; \x7d " ++
        "console.log(j);") loop body binding ∧
    ∃ inner ∈ body.sites, inner.node = binding.ident := by
  obtain ⟨source, text⟩ : ∃ source, source =
    "let n = 2; while (n--) if (n) let j = n; else \x7b let k = n; () => k; \x7d " ++
      "console.log(j);" := ⟨_, rfl⟩
  have used := @exists_usedOutside source 5 27
    (fun body binding => body.sites.any fun inner => inner.node == binding.ident)
    (by rw [text]; decide +kernel)
  rw [← text]
  obtain ⟨loop, body, binding, used, among⟩ := used
  obtain ⟨inner, member, same⟩ := List.any_eq_true.mp among
  exact ⟨loop, body, binding, used, inner, member, beq_iff_eq.mp same⟩

end Compilation

end LoopCapture
