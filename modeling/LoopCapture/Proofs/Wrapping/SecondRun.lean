import LoopCapture.Proofs.Wrapping.Captures

/-!
# A second run

After a run, the captures that are left are those that it complained about. So a second run changes
nothing about the program, and it says nothing unless the first one did.
-/

set_option autoImplicit false

namespace LoopCapture.Wrapping

open Outline

/-! ## Complaints -/

theorem wrappedLoops_subset {outline : Outline} {mode : Mode} {some all : List Capture}
    (subset : some ⊆ all) : wrappedLoops outline mode some ⊆ wrappedLoops outline mode all := by
  intro id member
  obtain ⟨capture, among, wraps, same⟩ := mem_wrappedLoops.mp member
  exact mem_wrappedLoops.mpr ⟨capture, subset among, wraps, same⟩

/-- A capture whose loop is not wrapped in the end is complained about. -/
theorem complaints_ne_nil {outline : Outline} {mode : Mode} {captures : List Capture}
    {capture : Capture} (member : capture ∈ captures)
    (unwrapped : capture.loop.id ∉ wrappedLoops outline mode captures)
    (complains : capture.wraps outline mode = true ↔ capture.complaint? outline mode = none) :
    complaints outline mode captures ≠ [] := by
  intro nothing
  obtain ⟨position, found⟩ := List.mem_iff_getElem?.mp member
  have entry : (capture, position) ∈ captures.zipIdx := List.mk_mem_zipIdx_iff_getElem?.mpr found
  have silent := List.filterMap_eq_nil_iff.mp nothing (capture, position) entry
  have early : capture.loop.id ∉ wrappedLoops outline mode (captures.take position) :=
    fun listed => unwrapped (wrappedLoops_subset (List.take_subset _ _) listed)
  rw [if_neg early] at silent
  exact unwrapped (mem_wrappedLoops.mpr ⟨capture, member, complains.mpr silent, rfl⟩)

theorem length_diagnostics_foldl (complaints : List Diagnostic) (report : Report) :
    (complaints.foldl .add report).diagnostics.length =
      report.diagnostics.length + complaints.length := by
  induction complaints generalizing report with
  | nil => rfl
  | cons first rest ih =>
      rw [List.foldl_cons, ih]
      simp only [Report.add, List.length_append, List.length_cons, List.length_nil]
      omega

theorem foldl_add_eq_self {complaints : List Diagnostic} {report : Report}
    (same : complaints.foldl .add report = report) : complaints = [] := by
  have lengths := length_diagnostics_foldl complaints report
  rw [same] at lengths
  exact List.length_eq_zero_iff.mp (by omega)

/-! ## Visits after a run -/

variable {source : List Char} {program : Program}

/-- After a run, a visit can only complain again. -/
theorem visit_after_run (parsed : Program.ofText source = .ok program) {mode : Mode}
    {report : Report} {state : Wrapping × Report}
    (visited : Visited (ofProgram program) mode (ofOutline source (ofProgram program)) report
      (ofProgram program).sites state) {site : Site} (member : site ∈ (ofProgram program).sites)
    (told : Report) : visit mode (state.1, told) site.node = (state.1, told) ∨
      state.2 ≠ report ∧ (visit mode (state.1, told) site.node).1 = state.1 := by
  rcases visit_cases mode state.1 told site.node with ⟨same, -⟩ | ⟨capture, _, judged, decided, same⟩ |
    ⟨capture, target, judged, decided, -⟩
  · exact .inl same
  all_goals
    have regular := regular_of_ofText parsed
    have lexical := Resolution.lexical_ofOutline program
    obtain ⟨specified, unwrapped⟩ := visited.reached.capture?_eq_some regular
      (Resolution.grounded_ofOutline program) member judged
    rw [visited.wrapped] at unwrapped
    have among : capture ∈ (ofProgram program).captures (.ofOutline (ofProgram program)) :=
      List.mem_filterMap.mpr ⟨site, member, specified⟩
  · refine .inr ⟨fun silent => ?_, by rw [same]⟩
    rw [visited.report] at silent
    exact complaints_ne_nil among unwrapped (wraps_iff parsed mode among) (foldl_add_eq_self silent)
  · -- A capture that wraps its loop has done so in the run.
    exfalso
    obtain ⟨_, -, _, -, -, verdict, wraps⟩ :=
      verdict?_of_capture? regular visited.reached lexical specified mode
    rw [decided] at verdict
    cases complained : capture.complaint? (ofProgram program) mode with
    | some _ => simp [complained] at verdict
    | none => exact unwrapped (mem_wrappedLoops.mpr ⟨capture, among, by simp [wraps, complained], rfl⟩)

theorem foldl_after_run (parsed : Program.ofText source = .ok program) {mode : Mode}
    {report : Report} {state : Wrapping × Report}
    (visited : Visited (ofProgram program) mode (ofOutline source (ofProgram program)) report
      (ofProgram program).sites state) {sites : List Site} (subset : sites ⊆ (ofProgram program).sites)
    (told : Report) :
    let final := sites.foldl (fun state site => visit mode state site.node) (state.1, told)
    final.1 = state.1 ∧ (state.2 = report → final.2 = told) := by
  induction sites generalizing told with
  | nil => exact ⟨rfl, fun _ => rfl⟩
  | cons site sites ih =>
      obtain ⟨here, later⟩ := List.cons_subset.mp subset
      rw [List.foldl_cons]
      rcases visit_after_run parsed visited here told with same | ⟨spoke, same⟩
      · rw [same]
        exact ih later told
      · have next : visit mode (state.1, told) site.node =
            (state.1, (visit mode (state.1, told) site.node).2) := Prod.ext same rfl
        rw [next]
        exact ⟨(ih later _).1, fun silent => absurd silent spoke⟩

theorem run_after_run (parsed : Program.ofText source = .ok program) (mode : Mode)
    (report : Report) :
    let first := run mode (ofOutline source (ofProgram program), report)
    (run mode first).1 = first.1 ∧ (first.2 = report → (run mode first).2 = first.2) := by
  intro first
  have visited : Visited (ofProgram program) mode _ report _ first := visited_run parsed mode report
  have again := foldl_after_run parsed visited (List.Subset.refl _) first.2
  rw [← visited.reached.outline_eq] at again
  exact again

/-! ## Sessions -/

namespace Session

/-- A session that runs over a program twice ends the second run where the first one ended. -/
theorem serve_run_run (parsed : Program.ofText source = .ok program) (mode : Mode) (report : Report)
    (rewritten : List Nat) :
    let session : Session := ⟨ofOutline source (ofProgram program), mode, some report, rewritten⟩
    let once := (session.serve .run).1
    let twice := (once.serve .run).1
    twice.program = once.program ∧ twice.rewritten = once.rewritten ∧ twice.mode = once.mode ∧
      (once.report = some report → twice.report = once.report) := by
  intro session once twice
  obtain ⟨same, silent⟩ := run_after_run parsed mode report
  refine ⟨same, ?_, rfl, fun quiet => ?_⟩
  · have added : twice.rewritten = once.rewritten ++
        twice.program.wrapped.drop once.program.wrapped.length := rfl
    have kept : twice.program = once.program := same
    rw [added, kept, List.drop_length, List.append_nil]
  · exact congrArg some (silent (Option.some.inj quiet))

/-- A loop without braces in another one, both of which the first run wraps. -/
theorem serve_run_run_nested : ∃ program,
    Program.ofText "for (const x of xs) for (const y of x) f(() => x + y);".toList = .ok program ∧
    let session : Session := ⟨ofOutline
      "for (const x of xs) for (const y of x) f(() => x + y);".toList (ofProgram program),
      .wrap, some (.empty none), []⟩
    let once := (session.serve .run).1
    once.rewritten.length = 2 ∧ (once.serve .run).1.program = once.program ∧
      (once.serve .run).1.rewritten = once.rewritten := by
  have checked : ((Program.ofText
        "for (const x of xs) for (const y of x) f(() => x + y);".toList).toOption.any fun program =>
        (Session.serve ⟨ofOutline
          "for (const x of xs) for (const y of x) f(() => x + y);".toList (ofProgram program),
          .wrap, some (.empty none), []⟩ .run).1.rewritten.length == 2) = true := by
    decide +kernel
  generalize String.toList _ = source at checked ⊢
  obtain ⟨program, parsed, checked⟩ := Program.exists_of_any checked
  obtain ⟨same, listed, -⟩ := serve_run_run parsed .wrap (.empty none) []
  exact ⟨program, parsed, beq_iff_eq.mp checked, same, listed⟩

end Session

end LoopCapture.Wrapping
