import LoopCapture.Proofs.Insertions.Weaving
import LoopCapture.Proofs.Wrapping.Captures

/-!
# Every loop is wrapped once

Whatever a session that has been set up is asked to do, as long as it is not taken back, it wraps no
loop twice. Its list of rewritten loops, the text and the scopes can be told from the loops wrapped
so far and from the program as it was before.
-/

set_option autoImplicit false

namespace LoopCapture

open Arena Outline Relation Insertions

/-! ## Iteration variables -/

/-- The iteration variable of a loop is a name with nothing under it. -/
theorem Outline.iterationVariable?_stmt {slot : Slot} {loop : Stmt} {above : List Node} {next : Nat}
    {site : Site} (found : (number above next (stmt slot loop)).1.iterationVariable? = some site) :
    ∃ part ∈ (number above next (stmt slot loop)).1.subtrees, part.label = site ∧
      part.children = [] ∧ site.node.slot = .declared := by
  unfold iterationVariable? at found
  split at found
  · rename_i each form
    obtain ⟨header, foundHeader, first⟩ := Option.bind_eq_some_iff.mp found
    have among := List.mem_of_find?_eq_some foundHeader
    have passed := List.find?_some foundHeader
    simp only [Bool.and_eq_true, beq_iff_eq] at passed
    rw [form_number] at form
    cases isDeclaration : header.label.node.form with
    | declaration kind =>
        rcases declaration_of_header (by rw [form]; rfl) among isDeclaration (by simp [passed.1]) with
          other | ⟨-, -, declarator, ident, -, -, children, -, slot, idents⟩
        · rw [form] at other
          cases other
        · obtain rfl : ident = site := by simpa [idents] using first
          have inner : .node declarator [.node ident []] ∈ header.children := by simp [children]
          refine ⟨.node ident [], ?_, rfl, rfl, slot⟩
          exact Tree.child_mem_subtrees (Tree.child_mem_subtrees (Tree.child_mem_subtrees
            (Tree.self_mem_subtrees _) among) inner) List.mem_cons_self
    | _ => simp [isDeclaration] at passed
  · cases found

theorem Outline.Regular.iterationVariable {outline loop : Outline} (regular : Regular outline)
    (inside : loop ∈ outline.subtrees) {site : Site} (found : loop.iterationVariable? = some site) :
    ∃ part : Outline, part ∈ outline.subtrees ∧ part.label = site ∧ part.children = [] ∧
      site.node.slot = .declared := by
  have isLoop : loop.label.node.isLoop = true := by
    unfold iterationVariable? at found
    split at found
    · rename_i kind form
      simp [Node.isLoop, form, Form.isLoop]
    · cases found
  obtain ⟨above, next, slot, stated, rfl⟩ := regular.loops loop inside isLoop
  obtain ⟨part, below, known⟩ := iterationVariable?_stmt found
  exact ⟨part, Tree.subtrees_subset inside below, known⟩

/-! ## Where texts are inserted -/

namespace Wrapping

variable {outline loop : Outline} {start state next : Wrapping} {target : Target}
  {source : List Char} {targets : List Target}

theorem Target.bounds_spec (target : Target) :
    target.body.label.node.loc.start ≤ target.bounds.1 ∧
      target.bounds.1 ≤ target.body.label.node.toLabel.inside ∧
      target.bounds.2 = target.body.label.node.toLabel.ending := by
  simp only [Target.bounds, Label.ending]
  split
  · rename_i form
    simp [Label.inside, form, Form.leads]
  · exact ⟨Nat.le_refl _, Label.start_le_inside _, rfl⟩

/-- The bounds of a body lie inside of no iteration variable. -/
theorem bounds_outside (regular : Regular outline) (inside : loop ∈ outline.subtrees)
    (bodied : loop.loopBody? = some target.body) {part : Outline} (partInside : part ∈ outline.subtrees)
    (leaf : part.children = []) (declared : part.label.node.slot = .declared) {offset : Nat}
    (bound : offset = target.bounds.1 ∨ offset = target.bounds.2) :
    ¬ (part.label.node.loc.start < offset ∧ offset < part.label.node.loc.stop) := by
  obtain ⟨bodyInside, -, slot, -⟩ := regular.body inside bodied
  have different : part ≠ target.body := by
    rintro rfl
    rw [slot] at declared
    cases declared
  have member := label_mem_sites partInside
  have bodyMember := label_mem_sites bodyInside
  obtain ⟨starts, before, ends⟩ := target.bounds_spec
  have first := target.body.label.node.toLabel.inside_le
  have last := target.body.label.node.toLabel.stop_le_ending
  have lastToo := target.body.label.node.toLabel.ending_le_stop
  rcases regular.apart part.label member target.body.label bodyMember with below | upper | apart
  · rcases List.mem_cons.mp below with same | above
    · have equal := regular.subtree_eq_of_id partInside bodyInside (congrArg Node.id same).symm
      exact absurd equal different
    · obtain ⟨behind, within, -⟩ := loc_of_mem_path (regular.places _ member) _ above
      omega
  · have under := regular.mem_subtrees_of_suffix partInside bodyInside
      (regular.suffix_of_mem bodyMember member upper)
    obtain ⟨label, children⟩ := part
    obtain rfl : children = [] := leaf
    exact absurd (List.mem_singleton.mp under).symm different
  · obtain ⟨one, other, disjoint⟩ := apart
    omega

theorem body_bounds {program : Program} (parsed : Program.ofText source = .ok program)
    (regular : Regular (ofProgram program)) (inside : loop ∈ (ofProgram program).subtrees)
    {body : Outline} (bodied : loop.loopBody? = some body) :
    body.label.node.loc.start < body.label.node.loc.stop ∧
      body.label.node.loc.stop ≤ source.length ∧
      body.label.node.toLabel.inside ≤ body.label.node.toLabel.ending := by
  obtain ⟨bodyInside, -, slot, -⟩ := regular.body inside bodied
  obtain ⟨-, -, -, -, -, -, loc⟩ := Program.ofText_eq_ok parsed
  have laid := Program.laid_of_ofText parsed
  rw [loc] at laid
  rcases List.mem_cons.mp (label_mem_sites bodyInside) with root | below
  · rw [root] at slot
    cases slot
  · exact (LaidAll.bounds laid _ below).2

/-- Insertions outside of a range do not show in it. -/
theorem textOf_eq {placements : List Placement} {insertions : Insertions}
    (told : Told source placements insertions) {start stop : Nat}
    (outside : ∀ made ∈ placements, ¬ (start < made.offset ∧ made.offset < stop)) :
    insertions.textOf start stop = (ofSource source).textOf start stop := by
  have none : (insertions.edits.filter fun edit =>
      edit.committed && start < edit.offset && edit.offset < stop) = [] := by
    rw [List.filter_eq_nil_iff]
    intro edit member
    obtain ⟨made, among, same⟩ := told.offsets edit member
    have := outside made among
    simp only [Bool.and_eq_true, decide_eq_true_eq]
    omega
  rw [textOf, none, told.source_eq]
  rfl

/-- The requests made to wrap the body of a loop. -/
def Target.placements (source : List Char) (target : Target) : List Placement :=
  [⟨target.bounds.1, ⟨target.head, 0, true, true⟩⟩,
    ⟨target.bounds.2, ⟨target.foot (ofSource source), -(target.loop.loopDepth : Int), true, true⟩⟩]

def placementsFor (source : List Char) (targets : List Target) : List Placement :=
  targets.flatMap (Target.placements source)

/-! ## Counting loops -/

/-- What a program owes to the loops wrapped so far. -/
structure Tally (start state : Wrapping) (targets : List Target) : Prop where
  wrapped : state.wrapped = targets.map (·.loop.node.id)
  distinct : state.wrapped.Nodup
  among : ∀ target ∈ targets, ∃ loop : Outline, loop ∈ start.outline.subtrees ∧
    start.target? loop = some target
  insertions : state.insertions = placeAll start.insertions.source
    (placementsFor start.insertions.source targets)
  size : state.resolution.arena.size = start.resolution.arena.size +
    targets.countP (·.body.label.node.form ≠ .block)

theorem param_eq_some (fits : state.target? loop = some target) {ident : Node}
    (isParam : target.param = some ident) :
    ∃ site, loop.iterationVariable? = some site ∧ site.node = ident := by
  simp only [target?, bind, Option.bind_eq_some_iff] at fits
  obtain ⟨body, bodied, scope, placed, made⟩ := fits
  obtain rfl := Option.some.inj made
  have kept := (Option.filter_eq_some_iff.mp isParam).1
  exact Option.map_eq_some_iff.mp kept

/-- The scopes grow by one for a body without braces, and only then. -/
theorem size_wrap (regular : Regular outline) (lexical : Resolution.Lexical outline state.resolution)
    (inside : loop ∈ outline.subtrees) (fits : state.target? loop = some target)
    (braced : target.body.label.node.form = .block → target.bodyScope ≠ none) (ref : Node) :
    (state.wrap target ref).1.resolution.arena.size = state.resolution.arena.size +
      [target].countP (·.body.label.node.form ≠ .block) := by
  have framed : (state.wrap target ref).1.resolution.arena.size =
      (wrapperScope state.resolution target).1.arena.size := (framed_declareParam _ _ _).size
  rw [framed]
  rcases wrapperScope_cases regular lexical inside fits with
    ⟨prior, around, bare, -, -, rescoped, -⟩ | ⟨scope, own, -, -, -, -, form, wrapped⟩
  · have unbraced : target.body.label.node.form ≠ .block := fun form => braced form bare
    simp [rescoped.enclosed.size, unbraced]
  · rw [wrapped]
    simp [setKind, size_modify, form]

/-- Whatever has been inserted, the argument of the next call is spelled as in the source. -/
theorem Tally.foot_eq (regular : Regular outline) (same : start.outline = outline)
    (tally : Tally start state targets) (inside : loop ∈ outline.subtrees)
    (fits : state.target? loop = some target) :
    target.foot state.insertions = target.foot (ofSource start.insertions.source) := by
  unfold Target.foot
  cases isParam : target.param with
  | none => rfl
  | some ident =>
      obtain ⟨site, assigned, rfl⟩ := param_eq_some fits isParam
      obtain ⟨part, partInside, rfl, leaf, declared⟩ := regular.iterationVariable inside assigned
      rw [tally.insertions]
      dsimp only
      rw [textOf_eq (told_placeAll _ _)]
      intro made member
      obtain ⟨earlier, earlierMember, requested⟩ := List.mem_flatMap.mp member
      obtain ⟨other, otherInside, otherFits⟩ := tally.among earlier earlierMember
      refine bounds_outside regular (same ▸ otherInside) (target?_eq_some otherFits).1 partInside leaf
        declared ?_
      rcases List.mem_cons.mp requested with rfl | last
      · exact .inl rfl
      · obtain rfl := List.mem_singleton.mp last
        exact .inr rfl

/-- Bodies in braces have scopes of their own. -/
def Braced (start : Wrapping) : Prop :=
  ∀ loop ∈ start.outline.subtrees, ∀ target, start.target? loop = some target →
    target.body.label.node.form = .block → target.bodyScope ≠ none

theorem Tally.step (regular : Regular outline) (reached : Reached outline start state)
    (same : start.outline = outline) (braced : Braced start) (tally : Tally start state targets)
    (step : Step outline state next) : ∃ target, Tally start next (targets ++ [target]) := by
  cases step with
  | @wrap loop target ref inside unwrapped fits =>
      have isTarget : start.target? loop = some target :=
        (reached.targets loop inside unwrapped).symm.trans fits
      have isLoop : target.loop = loop.label := (target?_eq_some fits).2.1
      have foot := tally.foot_eq regular same inside fits
      refine ⟨target, ?_, ?_, ?_, ?_, ?_⟩
      · simp [wrap, tally.wrapped]
      · have fresh : target.loop.node.id ∉ state.wrapped := isLoop ▸ unwrapped
        exact List.nodup_append.mpr ⟨tally.distinct, List.nodup_singleton _, by grind⟩
      · intro other member
        rcases List.mem_append.mp member with old | new
        · exact tally.among other old
        · obtain rfl := List.mem_singleton.mp new
          exact ⟨loop, same ▸ inside, isTarget⟩
      · rw [placementsFor, List.flatMap_append, List.flatMap_singleton, placeAll, List.foldl_append,
          ← placeAll, ← placementsFor, ← tally.insertions]
        show target.insert state.insertions = _
        simp only [Target.insert, foot]
        rfl
      · rw [size_wrap regular reached.lexical inside fits (braced loop (same ▸ inside) target isTarget),
          tally.size, List.countP_append, Nat.add_assoc]

theorem braced_ofOutline (program : Program)
    (regular : Regular (ofProgram program)) : Braced (ofOutline source (ofProgram program)) := by
  intro loop inside target fits form
  obtain ⟨bodied, -⟩ := target?_eq_some fits
  obtain ⟨bodyInside, -, slot, -⟩ := regular.body inside bodied
  obtain ⟨id, ids, placed, way, covers, -⟩ := (Resolution.grounded_ofOutline program).covered
    target.body.label (label_mem_sites bodyInside) (by simp [slot])
  have opensScope : target.body.label.node.opensScope = true := by
    simp [Node.opensScope, form, slot]
  cases way with
  | step found _ =>
      obtain ⟨scope, foundScope, owner⟩ := covers.first opensScope
      have opened : opens (ofOutline source (ofProgram program)).resolution.arena target.body.label id =
          true := by
        simp [opens, Wrapping.ofOutline, foundScope, owner]
      rw [target?_of_placed bodied placed] at fits
      have own := congrArg Target.bodyScope (Option.some.inj fits)
      simp only [form, opened, decide_true, Bool.and_self, if_true] at own
      simp [← own]

theorem tally_steps (regular : Regular start.outline)
    (lexical : Resolution.Lexical start.outline start.resolution) (braced : Braced start)
    (unwrapped : start.wrapped = []) (plain : start.insertions = ofSource start.insertions.source)
    (steps : ReflTransGen (Step start.outline) start state) :
    Reached start.outline start state ∧ ∃ targets, Tally start state targets := by
  have first := Reached.refl lexical rfl
  refine ⟨first.steps regular steps, ?_⟩
  induction steps with
  | refl => exact ⟨[], unwrapped, by simp [unwrapped], by simp, plain, (Nat.add_zero _).symm⟩
  | tail former step formerIH =>
      obtain ⟨targets, tally⟩ := formerIH
      obtain ⟨target, more⟩ := tally.step regular (first.steps regular former) rfl braced step
      exact ⟨_, more⟩

theorem bounds_le {program : Program} (parsed : Program.ofText source = .ok program)
    (regular : Regular (ofProgram program)) (inside : loop ∈ (ofProgram program).subtrees)
    (bodied : loop.loopBody? = some target.body) {made : Placement}
    (member : made ∈ target.placements source) : made.offset ≤ source.length := by
  obtain ⟨more, last, -⟩ := body_bounds parsed regular inside bodied
  obtain ⟨-, first, second⟩ := target.bounds_spec
  have starts := target.body.label.node.toLabel.inside_le
  have ends := target.body.label.node.toLabel.ending_le_stop
  rcases List.mem_pair.mp member with rfl | rfl <;> dsimp only <;> omega

theorem Tally.offsets_le {program : Program} (parsed : Program.ofText source = .ok program)
    (tally : Tally (.ofOutline source (.ofProgram program)) state targets) :
    ∀ made ∈ placementsFor source targets, made.offset ≤ source.length := by
  intro made member
  obtain ⟨target, among, requested⟩ := List.mem_flatMap.mp member
  obtain ⟨loop, inside, fits⟩ := tally.among target among
  exact bounds_le parsed (regular_of_ofText parsed) inside (target?_eq_some fits).1 requested

/-- The wrapped loops as nodes. -/
theorem Tally.nodes (regular : Regular start.outline) (tally : Tally start state targets)
    (same : state.outline = start.outline) :
    (state.wrapped.filterMap fun id => (state.outline.subtree? id).map (·.label.node)) =
      targets.map (·.loop.node) := by
  rw [tally.wrapped, same, List.filterMap_map, ← List.filterMap_eq_map]
  refine List.filterMap_congr fun target member => ?_
  obtain ⟨loop, inside, fits⟩ := tally.among target member
  obtain ⟨-, isLoop, -⟩ := target?_eq_some fits
  rw [Function.comp_apply, Function.comp_apply, isLoop, regular.subtree?_of_mem inside]
  rfl

theorem tally_run {program : Program} (parsed : Program.ofText source = .ok program) (mode : Mode)
    (report : Report) :
    Reached (.ofProgram program) (.ofOutline source (.ofProgram program))
        (run mode (.ofOutline source (.ofProgram program), report)).1 ∧
      ∃ targets, Tally (.ofOutline source (.ofProgram program))
        (run mode (.ofOutline source (.ofProgram program), report)).1 targets :=
  have regular := regular_of_ofText parsed
  tally_steps regular (Resolution.lexical_ofOutline program) (braced_ofOutline program regular) rfl rfl
    (steps_run rfl mode report)

/-! ## Sessions -/

theorem steps_prefix (steps : ReflTransGen (Step outline) state next) :
    state.wrapped <+: next.wrapped := by
  induction steps with
  | refl => exact List.prefix_rfl
  | tail _ step formerIH =>
      cases step
      exact formerIH.trans (List.prefix_append _ _)

/-- Requests that a pass over a program makes. -/
def Request.Passes (outline : Outline) : Request → Prop
  | .run => True
  | .visit _ => True
  | .wrap loop _ => loop ∈ outline.subtrees ∧ loop.label.node.isLoop = true
  | _ => False

theorem Request.Passes.about {request : Request} (passes : request.Passes outline) :
    request.About outline := by
  cases request with
  | wrap loop ref => exact passes.1
  | _ => trivial

namespace Session

/-- A session that has been set up and has not been taken back. -/
structure Engaged (start : Wrapping) (session : Session) : Prop where
  report : ∃ report, session.report = some report
  steps : ReflTransGen (Step start.outline) start session.program
  rewritten : session.rewritten = session.program.wrapped

variable {session : Session} {request : Request} {requests : List Request}

theorem serve_advance {report : Report} (ready : session.report = some report)
    (passes : request.Passes outline) : (session.serve request).1 = session ∨
      ∃ program report, (session.serve request).1 = session.advance program report := by
  cases request with
  | run => exact .inr ⟨_, _, by simp only [serve, visiting, ready]; rfl⟩
  | visit ref => exact .inr ⟨_, _, by simp only [serve, visiting, ready]; rfl⟩
  | wrap loop ref =>
      simp only [serve, wrapLoop]
      split
      · split
        · exact .inl rfl
        · exact .inr ⟨_, _, rfl⟩
      · exact .inl rfl
  | _ => exact absurd passes id

theorem Engaged.steps_serve (engaged : Engaged start session)
    (passes : request.Passes start.outline) :
    ReflTransGen (Step start.outline) session.program (session.serve request).1.program := by
  rcases serve_cases (steps_outline_eq engaged.steps) passes.about with
    steps | ⟨offset, change, _, rfl, -⟩
  · exact steps
  · exact absurd passes id

theorem Engaged.serve (engaged : Engaged start session) (passes : request.Passes start.outline) :
    Engaged start (session.serve request).1 := by
  obtain ⟨report, ready⟩ := engaged.report
  have steps := engaged.steps_serve passes
  rcases serve_advance ready passes with unchanged | ⟨program, further, advanced⟩
  · rw [unchanged]
    exact engaged
  · rw [advanced] at steps ⊢
    refine ⟨⟨_, rfl⟩, engaged.steps.trans steps, ?_⟩
    obtain ⟨added, grown⟩ := steps_prefix steps
    show session.rewritten ++ program.wrapped.drop session.program.wrapped.length = program.wrapped
    have grown : session.program.wrapped ++ added = program.wrapped := grown
    rw [engaged.rewritten, ← grown, List.drop_left]

theorem Engaged.serveAll (engaged : Engaged start session)
    (passes : ∀ request ∈ requests, request.Passes start.outline) :
    Engaged start (session.serveAll requests) := by
  induction requests generalizing session with
  | nil => exact engaged
  | cons request requests restIH =>
      exact restIH (engaged.serve (passes request List.mem_cons_self))
        fun other member => passes other (List.mem_cons_of_mem _ member)

theorem Engaged.stays (engaged : Engaged start session)
    (passes : ∀ request ∈ requests, request.Passes start.outline) :
    session.rewritten <+: (session.serveAll requests).rewritten := by
  induction requests generalizing session with
  | nil => exact List.prefix_rfl
  | cons request requests restIH =>
      have passesFirst := passes request List.mem_cons_self
      have next := engaged.serve passesFirst
      have grown : session.rewritten <+: (session.serve request).1.rewritten := by
        rw [engaged.rewritten, next.rewritten]
        exact steps_prefix (engaged.steps_serve passesFirst)
      exact grown.trans (restIH next fun other member => passes other (List.mem_cons_of_mem _ member))

/-- While the pass runs, every loop has the parts that wrapping depends on. -/
theorem target?_isSome (regular : Regular outline)
    (lexical : Resolution.Lexical outline state.resolution) (inside : loop ∈ outline.subtrees)
    (isLoop : loop.label.node.isLoop = true) : ∃ target, state.target? loop = some target := by
  obtain ⟨body, bodied⟩ := regular.bodies inside isLoop
  obtain ⟨bodyInside, -, slot, -⟩ := regular.body inside bodied
  obtain ⟨id, scope, placed, -⟩ :=
    lexical.placed body.label (label_mem_sites bodyInside) (by simp [slot])
  exact ⟨_, target?_of_placed bodied placed⟩

theorem Engaged.again (engaged : Engaged start session) (fits : session.program.target? loop = some target)
    (ref : Node) :
    if loop.label.node.id ∈ session.rewritten then
      session.serve (.wrap loop ref) = (session, .error (.rewrittenTwice loop.label.node))
    else (session.serve (.wrap loop ref)).1.rewritten =
        session.rewritten ++ [loop.label.node.id] ∧
      ∃ scope, (session.serve (.wrap loop ref)).2 = .ok (some scope) := by
  obtain ⟨report, ready⟩ := engaged.report
  have isLoop : target.loop = loop.label := (target?_eq_some fits).2.1
  rw [engaged.rewritten]
  simp only [Session.serve, wrapLoop, ready, fits, List.contains_eq_mem]
  split
  · rename_i wrapped
    rw [if_pos (decide_eq_true wrapped)]
  · rename_i unwrapped
    rw [if_neg (by simpa using unwrapped)]
    refine ⟨?_, _, rfl⟩
    simp [advance, wrap, engaged.rewritten, isLoop]

/-- What is true of a session once it has wrapped some loops, told from these loops and from the
program it was given. -/
structure Ledger (start : Wrapping) (session : Session) (targets : List Target) : Prop where
  rewritten : session.rewritten = targets.map (·.loop.node.id)
  flagged : session.program.wrapped = session.rewritten
  distinct : session.rewritten.Nodup
  loops : ∀ target ∈ targets, ∃ loop : Outline, loop ∈ start.outline.subtrees ∧
    loop.label.node.isLoop = true ∧ start.target? loop = some target
  /-- Each loop has asked for a head and a foot, and nothing else has been asked for. -/
  insertions : session.program.insertions = placeAll start.insertions.source
    (placementsFor start.insertions.source targets)
  text : session.program.insertions.render = String.ofList ((weave
    (placementsFor start.insertions.source targets) 0 start.insertions.source).flatMap Piece.chars)
  kept : (weave (placementsFor start.insertions.source targets) 0
    start.insertions.source).filterMap Piece.kept? = start.insertions.source
  inserted : ((weave (placementsFor start.insertions.source targets) 0
    start.insertions.source).filterMap Piece.inserted?).Perm
      ((placementsFor start.insertions.source targets).map (·.request.text))
  scopes : session.program.resolution.arena.size = start.resolution.arena.size +
    targets.countP (·.body.label.node.form ≠ .block)
  /-- Loops stay in the list, whatever is asked for next. -/
  stays : ∀ further : List Request, (∀ request ∈ further, request.Passes start.outline) →
    session.rewritten <+: (session.serveAll further).rewritten
  /-- A loop of the list is refused, and any other one is wrapped and put there. -/
  again : ∀ loop : Outline, loop ∈ start.outline.subtrees → loop.label.node.isLoop = true →
    ∀ ref : Node,
      if loop.label.node.id ∈ session.rewritten then
        session.serve (.wrap loop ref) = (session, .error (.rewrittenTwice loop.label.node))
      else (session.serve (.wrap loop ref)).1.rewritten =
          session.rewritten ++ [loop.label.node.id] ∧
        ∃ scope, (session.serve (.wrap loop ref)).2 = .ok (some scope)

theorem Engaged.ledger {program : Program} (parsed : Program.ofText source = .ok program)
    (engaged : Engaged (.ofOutline source (.ofProgram program)) session) :
    ∃ targets, Ledger (.ofOutline source (.ofProgram program)) session targets := by
  have regular := regular_of_ofText parsed
  obtain ⟨reached, targets, tally⟩ := tally_steps regular (Resolution.lexical_ofOutline program)
    (braced_ofOutline program regular) rfl rfl engaged.steps
  have inText := tally.offsets_le parsed
  exact
    ⟨targets,
      { rewritten := engaged.rewritten.trans tally.wrapped
        flagged := engaged.rewritten.symm
        distinct := engaged.rewritten ▸ tally.distinct
        loops := by
          intro target member
          obtain ⟨loop, inside, fits⟩ := tally.among target member
          exact ⟨loop, inside, (regular.body inside (target?_eq_some fits).1).2.2.2.1, fits⟩
        insertions := tally.insertions
        text := tally.insertions ▸ (told_placeAll source _).render_eq inText
        kept := kept_weave _ _ _
        inserted := inserted_weave_all inText
        scopes := tally.size
        stays := fun _ passes => engaged.stays passes
        again := by
          intro loop inside isLoop ref
          obtain ⟨target, fits⟩ := target?_isSome regular reached.lexical inside isLoop
          exact engaged.again fits ref }⟩

/-- Whatever a session that has been set up is asked to do, it wraps each loop once. -/
theorem serveAll_ledger {program : Program} (parsed : Program.ofText source = .ok program)
    (options : Options) (file : Option String) (requests : List Request)
    (passes : ∀ request ∈ requests, request.Passes (.ofProgram program)) :
    ∃ targets, Ledger (.ofOutline source (.ofProgram program))
      ((Session.start (.ofOutline source (.ofProgram program))).serveAll
        (.configure options file :: requests)) targets := by
  have engaged : Engaged (.ofOutline source (.ofProgram program))
      ((Session.start (.ofOutline source (.ofProgram program))).serve (.configure options file)).1 :=
    ⟨⟨_, rfl⟩, .refl, rfl⟩
  exact (engaged.serveAll passes).ledger parsed

/-- One loop, wrapped by the pass for a capture and then asked for again. -/
theorem serveAll_ledger_again : ∃ program loop,
    Program.ofText "for (const x of xs) while (0) f(() => x);".toList = .ok program ∧
    loop ∈ (ofProgram program).subtrees ∧
    ∃ targets : List Target, targets.map (·.loop.node.id) = [loop.label.node.id] ∧
      Ledger (.ofOutline "for (const x of xs) while (0) f(() => x);".toList (.ofProgram program))
        ((Session.start (.ofOutline "for (const x of xs) while (0) f(() => x);".toList
          (.ofProgram program))).serveAll
            [.configure .standard none, .run, .wrap loop loop.label.node, .run]) targets := by
  have checked : ((Program.ofText "for (const x of xs) while (0) f(() => x);".toList).toOption.any
        fun program =>
        (ofProgram program).subtrees[1]?.any fun loop =>
        loop.label.node.isLoop && ((Session.start (.ofOutline
          "for (const x of xs) while (0) f(() => x);".toList (.ofProgram program))).serveAll
            [.configure .standard none, .run, .wrap loop loop.label.node, .run]).rewritten ==
          [loop.label.node.id]) = true := by
    decide +kernel
  generalize String.toList _ = source at checked ⊢
  obtain ⟨program, parsed, checked⟩ := Program.exists_of_any checked
  obtain ⟨loop, found, passed⟩ := (Option.any_eq_true _ _).mp checked
  simp only [Bool.and_eq_true, beq_iff_eq] at passed
  have inside := List.mem_of_getElem? found
  have passes : ∀ request ∈ [Request.run, .wrap loop loop.label.node, .run],
      request.Passes (.ofProgram program) := by
    intro request member
    simp only [List.mem_cons, List.not_mem_nil, or_false] at member
    rcases member with rfl | rfl | rfl
    · trivial
    · exact ⟨inside, passed.1⟩
    · trivial
  obtain ⟨targets, ledger⟩ := serveAll_ledger parsed .standard none _ passes
  exact ⟨program, loop, parsed, inside, targets, ledger.rewritten.symm.trans passed.2, ledger⟩

end Session

end Wrapping

end LoopCapture
