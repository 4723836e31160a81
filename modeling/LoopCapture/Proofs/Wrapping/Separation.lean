import LoopCapture.Proofs.Wrapping.Once
import LoopCapture.Proofs.Wrapping.Users

/-!
# Captured variables after wrapping

A variable that is declared in the body of a wrapped loop is made anew by every call of the function
around the body, and so is an iteration variable that becomes its parameter. Every captured variable
of a compiled program is one of these two, except for two kinds of variables that are declared in the
header of a loop: those of a `for` loop that an earlier capture of another variable has had wrapped,
and iteration variables of the same name as a variable of the body.
-/

set_option autoImplicit false

namespace LoopCapture

open Arena Outline Resolution

/-! ## Statements under a loop -/

/-- One path ends with another one, and no function lies between the two. -/
structure Nested (upper path : List Node) : Prop where
  suffix : upper <:+ path
  free : ∀ node rest, node :: rest <:+ path → upper <:+ rest → node.isFunction = false

theorem Nested.tail {upper path : List Node} {node : Node} (nested : Nested upper (node :: path))
    (different : upper ≠ node :: path) : Nested upper path where
  suffix := (List.suffix_cons_iff.mp nested.suffix).resolve_left different
  free other rest below := nested.free other rest (below.trans (List.suffix_cons _ _))

section Loop

variable {program : Program} (regular : Regular (ofProgram program)) {loop body : Outline}
  (inside : loop ∈ (ofProgram program).subtrees)

include regular inside

theorem child_of_above {part : Outline} (partInside : part ∈ (ofProgram program).subtrees)
    (above : part.label.above = loop.label.path) : part ∈ loop.children := by
  rcases Tree.exists_parent _ partInside with rfl | ⟨upper, upperInside, among⟩
  · rw [regular.rooted.above_eq] at above
    cases above
  · have path := ((regular.rooted.subtree upperInside).child among).above_eq
    rw [above] at path
    have same : upper = loop :=
      regular.subtree_eq_of_id upperInside inside (congrArg Node.id (List.cons.inj path).1).symm
    exact same ▸ among

theorem mem_sites_of_suffix {site : Site} (member : site ∈ (ofProgram program).sites)
    (suffix : loop.label.path <:+ site.path) : site ∈ loop.sites := by
  obtain ⟨part, partInside, rfl⟩ := exists_subtree member
  exact label_mem_sites (regular.mem_subtrees_of_suffix inside partInside suffix)

variable (bodied : loop.loopBody? = some body)

include bodied

/-- Nothing but the body stands in its place. -/
theorem body_of_slot {part : Outline} (among : part ∈ loop.children)
    (slot : part.label.node.slot = .loopBody) : part = body := by
  obtain ⟨-, -, -, isLoop, -⟩ := regular.body inside bodied
  obtain ⟨above, next, place, stated, rfl⟩ := regular.loops loop inside isLoop
  rw [Node.isLoop, form_number] at isLoop
  obtain ⟨inner, hasBody⟩ := loopBody?_of_isLoop isLoop
  obtain ⟨before, after, split, header, footer⟩ := children_loop hasBody place
  generalize stmt place stated = tree at *
  obtain ⟨label, children⟩ := tree
  obtain rfl : children = _ := split
  rw [number, loopBody?_number (slot_stmt .loopBody inner) header] at bodied
  simp only [number, Tree.children, numberAll_append, numberAll, List.mem_append,
    List.mem_cons] at among
  have elsewhere {above : List Node} {next : Nat} {trees : List (Tree Label)}
      (plain : ∀ tree ∈ trees, tree.label.slot = .plain)
      (listed : part ∈ (numberAll above next trees).1) : False := by
    obtain ⟨tree, member, same⟩ := exists_label_numberAll part listed
    have other : part.label.node.slot = .plain := (congrArg Label.slot same).trans (plain tree member)
    rw [slot] at other
    cases other
  rcases among with early | rfl | late
  · exact (elsewhere header early).elim
  · exact Option.some.inj bodied
  · exact (elsewhere footer late).elim

/-- What holds statements and stands under a loop, with no function between the two, stands in the
body of the loop. -/
theorem suffix_of_holds {path : List Node} {lower : Node}
    (member : ⟨lower, path⟩ ∈ (ofProgram program).sites) (holds : lower.holdsStatements = true)
    (nested : Nested loop.label.path path) : body.label.path <:+ lower :: path := by
  obtain ⟨-, -, -, isLoop, -⟩ := regular.body inside bodied
  induction path generalizing lower with
  | nil => exact absurd (List.suffix_nil.mp nested.suffix) (List.cons_ne_nil _ _)
  | cons upper rest ih =>
      have under := (List.isChain_cons_cons.mp (regular.grammar _ member)).1.1
      simp only [Label.holdsStatements, Bool.or_eq_true, beq_iff_eq] at holds
      rcases holds with (compound | slot) | form
      · by_cases same : loop.label.path = upper :: rest
        · obtain ⟨part, partInside, label⟩ := exists_subtree member
          have among := child_of_above regular inside partInside (by rw [label, same])
          have slot : lower.slot = .loopBody :=
            under.inLoop compound (by rw [← (List.cons.inj same).1]; exact isLoop)
          have isBody := body_of_slot regular inside bodied among (by rw [label]; exact slot)
          exact ⟨[], by rw [← isBody, label]; rfl⟩
        · have upperMember := regular.mem_of_suffix member (List.suffix_cons lower (upper :: rest))
          exact (ih upperMember (under.compound compound) (nested.tail same)).trans
            (List.suffix_cons _ _)
      · -- The function of a block would be the loop or lie between the two.
        have isFunction : upper.isFunction = true := under.functionBody slot
        by_cases same : loop.label.path = upper :: rest
        · rw [(List.cons.inj same).1, Node.isLoop] at isLoop
          cases form : upper.form with
          | function kind => simp [form, Form.isLoop] at isLoop
          | _ => simp [Node.isFunction, form, Form.isFunction] at isFunction
        · rw [nested.free upper rest (List.suffix_refl _) (nested.tail same).suffix] at isFunction
          cases isFunction
      · obtain ⟨part, partInside, label⟩ := exists_subtree member
        have root := root_of_program partInside (by rw [label]; exact form)
        have above : part.label.above = upper :: rest := by rw [label]
        rw [root, regular.rooted.above_eq] at above
        cases above

/-- A variable that is declared under a loop, with no function between the two, is one of the body or
of the header. -/
theorem body_or_header {ident : Site} (member : ident ∈ (ofProgram program).sites)
    {declarator declaration : Node} {above : List Node} {kind : DeclKind}
    (path : ident.above = declarator :: declaration :: above)
    (form : declaration.form = .declaration kind) (lexical : kind.isBlockScoped = true)
    (nested : Nested loop.label.path above) :
    ident ∈ body.sites ∨ loop.label.node.form = .loop .forLoop ∨
      loop.iterationVariable? = some ident := by
  obtain ⟨bodyInside, -, -, isLoop, -⟩ := regular.body inside bodied
  have lower : declarator :: declaration :: above <:+ ident.path := path ▸ List.suffix_cons _ _
  have upper := (List.suffix_cons _ _).trans lower
  have declarationMember := regular.mem_of_suffix member upper
  by_cases same : loop.label.path = above
  · obtain ⟨whole, wholeInside, wholeLabel⟩ := exists_subtree declarationMember
    have among := child_of_above regular inside wholeInside (by rw [wholeLabel, same])
    by_cases slot : whole.label.node.slot = .loopBody
    · have isBody := body_of_slot regular inside bodied among slot
      refine .inl (mem_sites_of_suffix regular bodyInside member ?_)
      rw [← isBody, wholeLabel]
      exact upper
    · obtain ⟨middle, middleInside, middleLabel⟩ :=
        exists_subtree (regular.mem_of_suffix member lower)
      obtain ⟨part, partInside, rfl⟩ := exists_subtree member
      have inner :=
        child_of_above regular wholeInside middleInside (by rw [wholeLabel, middleLabel]; rfl)
      have innermost :=
        child_of_above regular middleInside partInside (by rw [middleLabel, path]; rfl)
      obtain ⟨outer, next, place, stated, rfl⟩ := regular.loops loop inside isLoop
      rw [Node.isLoop, form_number] at isLoop
      rw [form_number]
      have isDeclaration : whole.label.node.form = .declaration kind := by
        rw [wholeLabel]
        exact form
      right
      rcases declaration_of_header isLoop among isDeclaration slot with
        forLoop | ⟨each, others, declarator, name, loopForm, children, known, plain, -, idents⟩
      · exact .inl forLoop
      · rw [known, List.mem_singleton] at inner
        subst inner
        obtain rfl := List.mem_singleton.mp innermost
        right
        simp only [iterationVariable?, form_number, loopForm]
        simp [blockScopedHeader?, children, isDeclaration, plain, lexical, idents]
        rfl
  · cases above with
    | nil => exact absurd (List.suffix_nil.mp nested.suffix) (List.cons_ne_nil _ _)
    | cons parent rest =>
        have under := (List.isChain_cons_cons.mp (regular.grammar _ declarationMember)).1.1
        have parentSuffix := (List.suffix_cons _ _).trans upper
        have below := suffix_of_holds regular inside bodied
          (regular.mem_of_suffix member parentSuffix) (under.declaration kind form) (nested.tail same)
        exact .inl (mem_sites_of_suffix regular bodyInside member (below.trans parentSuffix))

end Loop

/-! ## Declarations of captured variables -/

section Captured

variable {program : Program}

/-- Scopes belong to functions, to statements that hold statements, or to the program. -/
theorem holds_of_owner {id : ScopeId} {scope : Scope}
    (found : (ofOutline (ofProgram program)).arena.get? id = some scope)
    (plain : scope.owner.node.isFunction = false) : scope.owner.node.holdsStatements = true := by
  obtain ⟨part, -, owns⟩ := (faithful_collect program).owned id (get?_lt found)
  obtain ⟨same, foundToo, owner, -⟩ := owns.scope
  obtain rfl := Option.some.inj (foundToo.symm.trans found)
  rw [owner] at plain ⊢
  rcases owns.opens with form | opens
  · simp [Label.holdsStatements, form]
  · cases form : part.label.node.form with
    | block =>
        cases slot : part.label.node.slot <;>
          simp [Label.holdsStatements, Label.isCompound, form, slot]
    | function kind => simp [Node.isFunction, form, Form.isFunction] at plain
    | _ => simp_all [Label.holdsStatements, Label.isCompound, opening]

variable (regular : Regular (ofProgram program))

include regular

theorem nested_of_enclosing {owner : Site} (member : owner ∈ (ofProgram program).sites)
    {loop : Outline} (inside : loop ∈ (ofProgram program).subtrees)
    (enclosing : owner.enclosingLoop? = some loop.label.node) :
    Nested loop.label.path owner.path := by
  rw [Site.enclosingLoop?, Option.filter_eq_some_iff] at enclosing
  obtain ⟨-, between, above, split, passed⟩ := List.find?_eq_some_iff_append.mp enclosing.1
  have suffix : loop.label.node :: above <:+ owner.path := ⟨between, split.symm⟩
  have label : (⟨loop.label.node, above⟩ : Site) = loop.label :=
    regular.eq_of_id (regular.mem_of_suffix member suffix) (label_mem_sites inside) rfl
  rw [← label]
  refine ⟨suffix, fun node rest below inner => ?_⟩
  obtain ⟨before, whole⟩ := below
  obtain ⟨middle, further⟩ := inner
  have same : before ++ node :: middle = between := by
    apply List.append_cancel_right
    rw [← split, ← whole, ← further]
    simp [Site.path]
  have free := passed node (same ▸ by simp)
  simp only [Bool.not_or, Bool.and_eq_true, Bool.not_eq_true'] at free
  exact free.1

omit regular in
/-- A function between a node and the owner of its scope would have a scope on the way. -/
theorem nested_of_scope {ident : Site} (member : ident ∈ (ofProgram program).sites)
    (unnamed : ident.node.slot ≠ .functionName) {id : ScopeId} {scope : Scope}
    (placed : (ofOutline (ofProgram program)).scope? ident.node = some id)
    (found : (ofOutline (ofProgram program)).arena.get? id = some scope) :
    Nested scope.owner.path ident.path := by
  obtain ⟨first, ids, place, way, covers⟩ := (faithful_collect program).covered ident member unnamed
  obtain rfl : first = id := Option.some.inj (place.symm.trans placed)
  obtain ⟨own, ownFound, suffix⟩ := covers.owner (by
    obtain ⟨rest, rfl⟩ := way.head
    exact List.mem_cons_self)
  obtain rfl := Option.some.inj (ownFound.symm.trans found)
  refine ⟨suffix, fun function rest below further => ?_⟩
  by_contra isFunction
  obtain ⟨inner, among, between, foundInner, owner⟩ :=
    covers.function below (Bool.not_eq_false _ ▸ isFunction)
  have upper := (lexical_ofOutline program).way_suffix way rfl ownFound among foundInner
  rw [owner] at upper
  have long := (upper.trans further).length_le
  simp only [Site.path, List.length_cons] at long
  omega

/-- A captured variable is declared in the body of its loop, or it is a variable of a `for` header
or the iteration variable. -/
theorem declaration_of_capture {site : Site} {capture : Wrapping.Capture}
    (captured : (ofOutline (ofProgram program)).capture? site = some capture) {loop body : Outline}
    (inside : loop ∈ (ofProgram program).subtrees) (isLoop : loop.label.node = capture.loop)
    (bodied : loop.loopBody? = some body) :
    ∃ ident ∈ (ofProgram program).sites, ident.node = capture.declaration ∧
      ident.node.name? = some capture.name ∧ (ident ∈ body.sites ∨ capture.inHeader = true ∧
        (capture.loop.form = .loop .forLoop ∨ loop.iterationVariable? = some ident)) := by
  obtain ⟨id, declaring, binding, refers, -⟩ := capture?_eq_some.mp captured
  obtain ⟨bodyInside, -, -, loopForm, -⟩ := regular.body inside bodied
  have known := (binding?_of_get? refers.found capture.name).trans refers.bound
  obtain ⟨ident, member, maker, scope, node, declares, named, place, home⟩ :=
    Collected.declaring_of_binding known
  rw [home_of_blockScoped _ refers.lexical] at home
  subst home
  refine ⟨ident, member, node.trans refers.declaration.symm, named, ?_⟩
  have lexical := refers.lexical
  generalize binding.kind = kind at declares lexical
  cases declares with
  | functionName | parameter | caught => cases lexical
  | @declared declarator _ above kind slot path isDeclarator isDeclaration =>
      have ownerMember := (lexical_ofOutline program).owners id declaring refers.found
      have enclosed := nested_of_enclosing regular ownerMember inside (isLoop ▸ refers.loop)
      have nested := nested_of_scope member (by simp [slot]) place refers.found
      by_cases header : declaring.owner.node.id = capture.loop.id
      · have label : declaring.owner = loop.label :=
          regular.eq_of_id ownerMember (label_mem_sites inside) (header.trans (by rw [isLoop]))
        have onPath : Nested loop.label.path (ident.node :: declarator :: maker :: above) := by
          rw [← path, ← label]
          exact nested
        obtain ⟨name, form⟩ := Collected.form_of_isName member path (by rw [slot]; rfl)
        have strip {node : Node} {rest : List Node} (other : node.form.isLoop = false)
            (nested : Nested loop.label.path (node :: rest)) : Nested loop.label.path rest := by
          refine nested.tail fun same => ?_
          rw [(List.cons.inj same).1, Node.isLoop, other] at loopForm
          cases loopForm
        have beyond := strip (by rw [isDeclaration]; rfl)
          (strip (by rw [isDeclarator]; rfl) (strip (by rw [form]; rfl) onPath))
        have inHeader : capture.inHeader = true := refers.inHeader.trans (by simp [header])
        rw [← isLoop]
        exact (body_or_header regular inside bodied member path isDeclaration
          (by cases kind <;> first | rfl | cases lexical) beyond).imp_right (.intro inHeader)
      · have different : loop.label.path ≠ declaring.owner.path := by
          intro same
          rw [← isLoop, ← (List.cons.inj same).1] at header
          exact header rfl
        have below := suffix_of_holds regular inside bodied ownerMember
          (holds_of_owner refers.found (Site.isFunction_of_enclosingLoop? refers.loop))
          (enclosed.tail different)
        exact .inl (mem_sites_of_suffix regular bodyInside member (below.trans nested.suffix))

end Captured

/-! ## Fates of captured variables -/

namespace Wrapping

/-- What becomes of a captured variable when its loop is wrapped. -/
inductive Fate (start : Wrapping) (loop : Outline) (target : Target) (site : Site)
    (capture : Capture) : Prop
  /-- The variable is declared in the body. -/
  | inside {ident : Site} (member : ident ∈ target.body.sites)
      (declares : ident.node = capture.declaration) : Fate start loop target site capture
  /-- The variable becomes the parameter of the function around the body. -/
  | handed (param : target.param = some capture.declaration) : Fate start loop target site capture
  /-- The iteration variable has the name of a variable of the body. -/
  | hidden {ident : Site} {scope : ScopeId} (iteration : loop.iterationVariable? = some ident)
      (declares : ident.node = capture.declaration) (braces : target.bodyScope = some scope)
      (known : start.resolution.arena.declares scope capture.name = true) :
      Fate start loop target site capture
  /-- The loop has been wrapped for a variable of the body by the time that the capture of a variable
  of its header is visited. -/
  | overlooked {other : Site} {earlier : Capture} (form : capture.loop.form = .loop .forLoop)
      (inHeader : capture.inHeader = true) (sooner : other.node.id < site.node.id)
      (captured : start.resolution.capture? other = some earlier)
      (same : earlier.loop = capture.loop) (inBody : earlier.inHeader = false) :
      Fate start loop target site capture

theorem Target.param_or_hidden {state : Wrapping} {loop : Outline} {target : Target}
    (fits : state.target? loop = some target) {ident : Site} {name : String}
    (iteration : loop.iterationVariable? = some ident) (named : ident.node.name? = some name) :
    target.param = some ident.node ∨ ∃ scope, target.bodyScope = some scope ∧
      state.resolution.arena.declares scope name = true := by
  simp only [target?, bind, Option.bind_eq_some_iff] at fits
  obtain ⟨body, -, scope, -, made⟩ := fits
  obtain rfl := Option.some.inj made
  dsimp only
  generalize (if body.label.node.form = .block && opens state.resolution.arena body.label scope then
    some scope else none) = braces
  rw [iteration, Option.map_some, Option.filter_eq_some_iff, named, Option.getD_some]
  cases hidden : braces.any (state.resolution.arena.declares · name) with
  | false => exact .inl ⟨rfl, rfl⟩
  | true => exact .inr ((Option.any_eq_true _ _).mp hidden)

/-- Without complaints, every capture wraps its loop unless an earlier one does. -/
theorem helped_of_silent {outline : Outline} {mode : Mode} {captures front back : List Capture}
    {capture : Capture} (silent : complaints outline mode captures = [])
    (split : captures = front ++ capture :: back) :
    capture.loop.id ∈ wrappedLoops outline mode front ∨ capture.complaint? outline mode = none := by
  have entry : (capture, front.length) ∈ captures.zipIdx := by
    rw [List.mk_mem_zipIdx_iff_getElem?, split]
    simp
  have unsaid := List.filterMap_eq_nil_iff.mp silent _ entry
  by_cases early : capture.loop.id ∈ wrappedLoops outline mode front
  · exact .inl early
  · simp only [split, List.take_left, if_neg early] at unsaid
    exact .inr unsaid

/-- Without complaints the loops of all captures are wrapped, those of the variables of `for` headers
for the sake of other variables. -/
theorem wrapped_of_silent {source : List Char} {program : Program}
    (parsed : Program.ofText source = .ok program)
    (silent : complaints (ofProgram program) .wrap
      ((ofProgram program).captures (.ofOutline (ofProgram program))) = []) {site : Site}
    (member : site ∈ (ofProgram program).sites) {capture : Capture}
    (captured : (Resolution.ofOutline (ofProgram program)).capture? site = some capture) :
    capture.loop.id ∈ wrappedLoops (ofProgram program) .wrap
        ((ofProgram program).captures (.ofOutline (ofProgram program))) ∧
      (capture.loop.form = .loop .forLoop → capture.inHeader = true →
        ∃ other earlier, other.node.id < site.node.id ∧
          (Resolution.ofOutline (ofProgram program)).capture? other = some earlier ∧
          earlier.loop = capture.loop ∧ earlier.inHeader = false) := by
  have among : capture ∈ (ofProgram program).captures (.ofOutline (ofProgram program)) :=
    List.mem_filterMap.mpr ⟨site, member, captured⟩
  obtain ⟨before, after, split⟩ := List.append_of_mem member
  have listed : (ofProgram program).captures (.ofOutline (ofProgram program)) =
      before.filterMap (Resolution.ofOutline (ofProgram program)).capture? ++
        capture :: after.filterMap (Resolution.ofOutline (ofProgram program)).capture? := by
    rw [captures, split, List.filterMap_append, List.filterMap_cons_some captured]
  have helped := helped_of_silent silent listed
  constructor
  · rw [mem_wrappedLoops]
    rcases helped with early | unsaid
    · obtain ⟨earlier, sooner, wraps⟩ := mem_wrappedLoops.mp early
      exact ⟨earlier, listed ▸ List.mem_append_left _ sooner, wraps⟩
    · exact ⟨capture, among, (wraps_iff parsed .wrap among).mpr unsaid, rfl⟩
  · intro form inHeader
    have regular := regular_of_ofText parsed
    have lexical := lexical_ofOutline program
    simp only [Capture.complaint?, form, inHeader] at helped
    obtain ⟨earlier, sooner, wraps, number⟩ := mem_wrappedLoops.mp (helped.resolve_right (Option.some_ne_none _))
    obtain ⟨other, first, capturedToo⟩ := List.mem_filterMap.mp sooner
    obtain ⟨loop, -, found, same, -⟩ := loop_of_capture? regular lexical captured
    obtain ⟨twin, -, twinFound, twinSame, -⟩ := loop_of_capture? regular lexical capturedToo
    obtain rfl : loop = twin := Option.some.inj (found.symm.trans (number ▸ twinFound))
    have sameLoop : earlier.loop = capture.loop := twinSame.symm.trans same
    refine ⟨other, earlier, ?_, capturedToo, sameLoop, ?_⟩
    · have ordered : ((ofProgram program).sites.map (·.node.id)).Pairwise (· < ·) := by
        rw [regular.numbered]
        exact List.pairwise_lt_range
      rw [split, List.pairwise_map, List.pairwise_append] at ordered
      exact ordered.2.2 other first site List.mem_cons_self
    · simp only [Capture.wraps, sameLoop, form, Bool.and_eq_true] at wraps
      simpa using wraps.1.2

end Wrapping

namespace Compilation

open Wrapping

/-- Every captured variable is declared in the body of its loop or handed to it as a parameter, unless
it is hidden by a variable of the body, or a variable of a `for` header whose loop has been wrapped
for another variable before. -/
theorem fate_of_captured {file : Option String} {source output : String} {result : Compilation}
    (compiled : compile ⟨.wrap⟩ file source = .ok result) (present : result.output = some output) :
    ∃ program, Program.ofText source.toList = .ok program ∧
      ∀ site ∈ (Outline.ofProgram program).sites, ∀ capture,
        (Resolution.ofOutline (.ofProgram program)).capture? site = some capture →
        capture.loop ∈ result.rewritten ∧
        ∃ loop ∈ (Outline.ofProgram program).subtrees, loop.label.node = capture.loop ∧
        ∃ target, (Wrapping.ofOutline source.toList (.ofProgram program)).target? loop = some target ∧
          Fate (.ofOutline source.toList (.ofProgram program)) loop target site capture := by
  obtain ⟨program, parsed, resolved⟩ := exists_program_of_output compiled present
  obtain rfl := Except.ok.inj ((compile_eq parsed resolved ⟨.wrap⟩ file).symm.trans compiled)
  have visited := visited_run parsed .wrap (.empty file)
  refine ⟨program, parsed, fun site member capture captured => ?_⟩
  dsimp only at present
  split at present
  case isFalse => cases present
  case isTrue silent =>
  obtain ⟨numbered, earlier⟩ := wrapped_of_silent parsed silent member captured
  have regular := regular_of_ofText parsed
  have lexical := lexical_ofOutline program
  obtain ⟨loop, inside, found, same, isLoop⟩ := loop_of_capture? regular lexical captured
  obtain ⟨target, fits⟩ : ∃ target, (Wrapping.ofOutline source.toList (.ofProgram program)).target?
      loop = some target := Session.target?_isSome regular lexical inside (same ▸ isLoop)
  obtain ⟨bodied, -⟩ := target?_eq_some fits
  refine ⟨?_, loop, inside, same, target, fits, ?_⟩
  · simp only [Compilation.rewritten, List.mem_filterMap, Option.map_eq_some_iff]
    refine ⟨_, visited.wrapped ▸ numbered, loop, ?_, same⟩
    rw [visited.reached.outline_eq]
    exact found
  obtain ⟨ident, -, declares, named, inBody | ⟨inHeader, form | iteration⟩⟩ :=
    declaration_of_capture regular captured inside same bodied
  · exact .inside inBody declares
  · obtain ⟨other, first, sooner, capturedToo, sameLoop, inBody⟩ := earlier form inHeader
    exact .overlooked form inHeader sooner capturedToo sameLoop inBody
  · rcases Target.param_or_hidden fits iteration named with param | ⟨scope, braces, known⟩
    · exact .handed (param.trans (congrArg some declares))
    · exact .hidden iteration declares braces known

/-- A capture in a compiled program, and the parts of its loop. -/
structure CapturedIn (source : String) (result : Compilation) (program : Program) (site : Site)
    (capture : Capture) (target : Target) : Prop where
  compiled : compile ⟨.wrap⟩ none source = .ok result
  present : ∃ output, result.output = some output
  parsed : Program.ofText source.toList = .ok program
  member : site ∈ (Outline.ofProgram program).sites
  captured : (Resolution.ofOutline (.ofProgram program)).capture? site = some capture
  fits : ∃ loop ∈ (Outline.ofProgram program).subtrees, loop.label.node.id = capture.loop.id ∧
    (Wrapping.ofOutline source.toList (.ofProgram program)).target? loop = some target

theorem exists_capturedIn {source : String} {place : Nat} {test : Capture → Target → Bool}
    (checked : (match Program.ofText source.toList, compile ⟨.wrap⟩ none source with
      | .ok program, .ok result => result.output.isSome &&
        (Outline.ofProgram program).sites[place]?.any fun site =>
          ((Resolution.ofOutline (.ofProgram program)).capture? site).any fun capture =>
            ((Outline.ofProgram program).subtree? capture.loop.id).any fun loop =>
              ((Wrapping.ofOutline source.toList (.ofProgram program)).target? loop).any (test capture)
      | _, _ => false) = true) :
    ∃ result program site capture target, CapturedIn source result program site capture target ∧
      test capture target = true := by
  split at checked
  · rename_i program result parsed compiled
    simp only [Bool.and_eq_true, Option.any_eq_true] at checked
    obtain ⟨present, site, indexed, capture, captured, loop, found, target, fits, passed⟩ := checked
    obtain ⟨inside, numbered⟩ := Tree.find?_eq_some found
    exact ⟨result, program, site, capture, target, ⟨compiled, Option.isSome_iff_exists.mp present,
      parsed, List.mem_of_getElem? indexed, captured, loop, inside, beq_iff_eq.mp numbered, fits⟩,
      passed⟩
  · cases checked

/-- An iteration variable in a closure. -/
theorem fate_of_captured_iteration : ∃ source, source = "for (const x of [1]) \x7b () => x; \x7d" ∧
    ∃ result program site capture target, CapturedIn source result program site capture target ∧
      capture.loop ∈ result.rewritten ∧ ∃ loop target,
        Fate (.ofOutline source.toList (.ofProgram program)) loop target site capture := by
  obtain ⟨source, text⟩ : ∃ source, source = "for (const x of [1]) \x7b () => x; \x7d" := ⟨_, rfl⟩
  obtain ⟨result, program, site, capture, target, captured, -⟩ :=
    @exists_capturedIn source 10 (fun _ _ => true) (by rw [text]; decide +kernel)
  obtain ⟨output, present⟩ := captured.present
  obtain ⟨again, parsed, fates⟩ := fate_of_captured captured.compiled present
  obtain rfl : program = again := Except.ok.inj (captured.parsed.symm.trans parsed)
  obtain ⟨rewritten, loop, -, -, other, -, fate⟩ :=
    fates site captured.member capture captured.captured
  exact ⟨source, text, result, program, site, capture, target, captured, rewritten, loop, other, fate⟩

/-- The variable of a `for` header is neither declared in the body nor handed to it, although a closure
captures it, once the loop has been wrapped for the variable of its body. -/
theorem header_left_shared : ∃ result program site capture target,
    CapturedIn "for (let i = 0; i < 3; i++) \x7b let j = i; () => j; () => i; \x7d" result program site
      capture target ∧
    (∀ ident ∈ target.body.sites, ident.node ≠ capture.declaration) ∧
    target.param ≠ some capture.declaration := by
  obtain ⟨source, text⟩ : ∃ source, source =
    "for (let i = 0; i < 3; i++) \x7b let j = i; () => j; () => i; \x7d" := ⟨_, rfl⟩
  obtain ⟨result, program, site, capture, target, captured, apart⟩ := @exists_capturedIn source 21
    (fun capture target => target.body.sites.all (·.node != capture.declaration) &&
      target.param != some capture.declaration) (by rw [text]; decide +kernel)
  rw [← text]
  simp only [Bool.and_eq_true, List.all_eq_true, bne_iff_ne] at apart
  exact ⟨result, program, site, capture, target, captured, apart⟩

end Compilation

end LoopCapture
