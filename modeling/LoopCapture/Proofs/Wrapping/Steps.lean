import LoopCapture.Proofs.Outline.Regular
import LoopCapture.Wrapping.Session
import Mathlib.Logic.Relation

/-!
# Steps of the pass

A visit either leaves the program alone or wraps one loop that has not been wrapped yet. So whatever
the pass is asked to do, the program gets from its start to where it is by wrapping such loops one
after the other, apart from insertions asked for directly.
-/

set_option autoImplicit false

namespace LoopCapture.Wrapping

open Relation

/-- One loop of the program is wrapped for the first time. -/
inductive Step (outline : Outline) : Wrapping → Wrapping → Prop
  | wrap {state : Wrapping} {loop : Outline} {target : Target} (ref : Node) :
      loop ∈ outline.subtrees → loop.label.node.id ∉ state.wrapped →
      state.target? loop = some target → Step outline state (state.wrap target ref).1

/-! ## Judging a node -/

/-- A node refers to a block scoped variable of a loop, as a capture says. -/
structure Refers (resolution : Resolution) (ref : Node) (declaringId : ScopeId) (declaring : Scope)
    (binding : Binding) (capture : Capture) : Prop where
  reference : ref.isReference = true
  name : ref.name? = some capture.name
  declaredIn : resolution.declaredIn? ref = some declaringId
  found : resolution.arena.get? declaringId = some declaring
  bound : declaring.bindings.get? capture.name = some binding
  lexical : binding.kind.isBlockScoped = true
  loop : declaring.owner.enclosingLoop? = some capture.loop
  ref : capture.ref = ref
  declaration : capture.declaration = binding.ident
  inHeader : capture.inHeader = (declaring.owner.node.id == capture.loop.id)

theorem guard_bind {α : Type} (test : Bool) (rest : Unit → Option α) :
    (guard (test = true) : Option Unit).bind rest = if test then rest () else none := by
  cases test <;> rfl

theorem capture?_eq_some {state : Wrapping} {ref : Node} {capture : Capture} :
    state.capture? ref = some capture ↔ ∃ declaringId declaring binding refScope,
      Refers state.resolution ref declaringId declaring binding capture ∧
      state.resolution.scope? ref = some refScope ∧ declaringId ≠ refScope ∧
      capture.loop.id ∉ state.wrapped ∧
      crossesFunction state.resolution.arena refScope declaringId = true := by
  constructor
  · intro judged
    simp only [capture?, bind, ↓guard_bind, Option.ite_none_right_eq_some,
      Option.bind_eq_some_iff] at judged
    obtain ⟨reference, name, named, declaringId, declaredIn, refScope, scope, different, declaring,
      found, binding, bound, lexical, loop, enclosing, unwrapped, crosses, made⟩ := judged
    obtain rfl := Option.some.inj made
    exact ⟨declaringId, declaring, binding, refScope,
      ⟨reference, named, declaredIn, found, bound, lexical, enclosing, rfl, rfl, rfl⟩, scope,
      by simpa using different, by simpa using unwrapped, crosses⟩
  · rintro ⟨declaringId, declaring, binding, refScope, refers, scope, different, unwrapped, crosses⟩
    simp only [capture?, bind, ↓guard_bind, refers.reference, refers.name, refers.declaredIn, scope,
      Option.bind_some, refers.found, refers.bound, refers.lexical, refers.loop, crosses, if_true]
    rw [if_pos (by simpa using different), if_pos (by simpa using unwrapped)]
    obtain ⟨made, name, loop, declaration, inHeader⟩ := capture
    simp only [← refers.ref, ← refers.declaration, ← refers.inHeader]
    rfl

theorem verdict?_eq_wrap {state : Wrapping} {mode : Mode} {capture : Capture} {target : Target} :
    state.verdict? mode capture = some (.wrap target) ↔
      mode = .wrap ∧ ¬ (capture.loop.form = .loop .forLoop ∧ capture.inHeader = true) ∧
        ∃ loop, state.outline.subtree? capture.loop.id = some loop ∧
          state.target? loop = some target ∧ target.body.obstacle? = none := by
  cases mode with
  | report => simp [verdict?]
  | wrap =>
      simp only [verdict?, Bool.and_eq_true, decide_eq_true_eq, true_and]
      by_cases header : capture.loop.form = .loop .forLoop ∧ capture.inHeader = true
      · simp [header]
      · simp only [header, if_false, bind, Option.bind_eq_some_iff, not_false_eq_true, true_and]
        constructor
        · rintro ⟨loop, found, known, fits, judged⟩
          refine ⟨loop, found, ?_⟩
          split at judged
          · cases judged
          · cases judged
            exact ⟨fits, by assumption⟩
        · rintro ⟨loop, found, fits, free⟩
          exact ⟨loop, found, target, fits, by rw [free]; rfl⟩

theorem visit_cases (mode : Mode) (state : Wrapping) (report : Report) (node : Node) :
    (visit mode (state, report) node = (state, report) ∧
      ∀ capture, state.capture? node = some capture → state.verdict? mode capture = none) ∨
    (∃ capture diagnostic, state.capture? node = some capture ∧
      state.verdict? mode capture = some (.report diagnostic) ∧
        visit mode (state, report) node = (state, report.add diagnostic)) ∨
    ∃ capture target, state.capture? node = some capture ∧
      state.verdict? mode capture = some (.wrap target) ∧
        visit mode (state, report) node = ((state.wrap target capture.ref).1, report) := by
  cases judged : state.capture? node with
  | none => exact .inl ⟨by simp only [visit, judged, Option.bind_none], fun _ none => nomatch none⟩
  | some capture =>
      cases verdict : state.verdict? mode capture with
      | none =>
          refine .inl ⟨by simp only [visit, judged, verdict, Option.bind_some, Option.map_none], ?_⟩
          intro other same
          obtain rfl := Option.some.inj same
          exact verdict
      | some outcome =>
          cases outcome with
          | report diagnostic =>
              refine .inr (.inl ⟨capture, diagnostic, rfl, verdict, ?_⟩)
              simp only [visit, judged, verdict, Option.bind_some, Option.map_some]
          | wrap target =>
              refine .inr (.inr ⟨capture, target, rfl, verdict, ?_⟩)
              simp only [visit, judged, verdict, Option.bind_some, Option.map_some]

/-! ## Steps -/

section Steps

variable {outline : Outline}

theorem Step.outline_eq {state next : Wrapping} (step : Step outline state next) :
    next.outline = state.outline := by
  cases step
  rfl

theorem visit_step {state : Wrapping} (same : state.outline = outline) (mode : Mode)
    (report : Report) (node : Node) : (visit mode (state, report) node).1 = state ∨
      Step outline state (visit mode (state, report) node).1 := by
  rcases visit_cases mode state report node with ⟨visited, -⟩ | ⟨_, _, -, -, visited⟩ |
    ⟨capture, target, judged, verdict, visited⟩
  · exact .inl (congrArg Prod.fst visited)
  · exact .inl (congrArg Prod.fst visited)
  · obtain ⟨-, -, loop, found, fits, -⟩ := verdict?_eq_wrap.mp verdict
    obtain ⟨_, _, _, _, -, -, -, unwrapped, -⟩ := capture?_eq_some.mp judged
    obtain ⟨inside, numbered⟩ := Tree.find?_eq_some found
    have id : loop.label.node.id = capture.loop.id := beq_iff_eq.mp numbered
    rw [visited]
    exact .inr (.wrap _ (same ▸ inside) (id ▸ unwrapped) fits)

/-- What every step keeps is kept by visits of nodes in any order. -/
theorem steps_foldl {state : Wrapping} (same : state.outline = outline) (mode : Mode)
    (report : Report) (nodes : List Site) : ReflTransGen (Step outline) state
      (nodes.foldl (fun state site => visit mode state site.node) (state, report)).1 := by
  induction nodes generalizing state report with
  | nil => exact .refl
  | cons site nodes ih =>
      rw [List.foldl_cons]
      obtain ⟨next, told⟩ : ∃ next, visit mode (state, report) site.node = next := ⟨_, rfl⟩
      obtain ⟨program, further⟩ := next
      have moved := visit_step same mode report site.node
      rw [told] at moved ⊢
      rcases moved with rfl | step
      · exact ih same further
      · exact (ih (step.outline_eq.trans same) further).head step

theorem steps_run {state : Wrapping} (same : state.outline = outline) (mode : Mode)
    (report : Report) : ReflTransGen (Step outline) state (run mode (state, report)).1 :=
  steps_foldl same mode report _

theorem steps_outline_eq {state next : Wrapping} (steps : ReflTransGen (Step outline) state next) :
    next.outline = state.outline := by
  induction steps with
  | refl => rfl
  | tail _ step ih => exact step.outline_eq.trans ih

end Steps

/-! ## Requests -/

/-- Requests to wrap are about loops of the program. -/
def Request.About (outline : Outline) : Request → Prop
  | .wrap loop _ => loop ∈ outline.subtrees
  | _ => True

namespace Session

def serveAll (session : Session) (requests : List Request) : Session :=
  requests.foldl (fun session request => (session.serve request).1) session

variable {outline : Outline}

/-- A request either takes the program through steps or asks for an insertion. -/
theorem serve_cases {session : Session} (same : session.program.outline = outline)
    {request : Request} (about : request.About outline) :
    ReflTransGen (Step outline) session.program (session.serve request).1.program ∨
      ∃ offset change insertions, request = .insert offset change ∧
        (session.serve request).1.program =
          { session.program with insertions := insertions } := by
  have visits (change : Wrapping × Report → Wrapping × Report)
      (steps : ∀ report, ReflTransGen (Step outline) session.program
        (change (session.program, report)).1) :
      ReflTransGen (Step outline) session.program (session.visiting change).1.program := by
    unfold visiting
    split
    · exact .refl
    · exact steps _
  cases request with
  | configure => exact .inl .refl
  | reset => exact .inl .refl
  | run => exact .inl (visits _ fun report => steps_run same _ report)
  | visit ref =>
      refine .inl (visits _ fun report => ?_)
      rcases visit_step same session.mode report ref with unchanged | step
      · rw [unchanged]
      · exact .single step
  | wrap loop ref =>
      refine .inl ?_
      simp only [serve, wrapLoop]
      split
      · split
        · exact .refl
        · rename_i unwrapped
          exact .single (.wrap ref about (by simpa using unwrapped) (by assumption))
      · exact .refl
  | insert offset request =>
      have stays : ∃ insertions, (session.serve (.insert offset request)).1.program =
          { session.program with insertions := insertions } := by
        simp only [serve]
        split
        · exact ⟨session.program.insertions, rfl⟩
        · exact ⟨_, rfl⟩
      obtain ⟨insertions, served⟩ := stays
      exact .inr ⟨offset, request, insertions, rfl, served⟩

/-- A request takes the program through steps and may insert into its text. -/
theorem steps_serve {session : Session} (same : session.program.outline = outline)
    {request : Request} (about : request.About outline) :
    ∃ program insertions, ReflTransGen (Step outline) session.program program ∧
      (session.serve request).1.program = { program with insertions := insertions } := by
  rcases serve_cases same about with steps | ⟨_, _, insertions, -, served⟩
  · exact ⟨_, _, steps, rfl⟩
  · exact ⟨session.program, insertions, .refl, served⟩

/-- What steps keep, whatever the insertions are, is kept by requests. -/
theorem serveAll_induction {motive : Wrapping → Prop}
    (step : ∀ state next, state.outline = outline → motive state → Step outline state next →
      motive next)
    (edit : ∀ state insertions, motive state → motive { state with insertions := insertions })
    {session : Session} (same : session.program.outline = outline)
    (start : motive session.program) {requests : List Request}
    (about : ∀ request ∈ requests, request.About outline) :
    motive (session.serveAll requests).program := by
  induction requests generalizing session with
  | nil => exact start
  | cons request requests ih =>
      obtain ⟨program, insertions, steps, served⟩ :=
        steps_serve same (about request List.mem_cons_self)
      have reached : motive program ∧ program.outline = outline := by
        clear served
        induction steps with
        | refl => exact ⟨start, same⟩
        | tail _ next known =>
            exact ⟨step _ _ known.2 known.1 next, next.outline_eq.trans known.2⟩
      refine ih ?_ ?_ fun other member => about other (List.mem_cons_of_mem _ member)
      · rw [served]
        exact reached.2
      · rw [served]
        exact edit program insertions reached.1

end Session

end LoopCapture.Wrapping
