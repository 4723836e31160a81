import LoopCapture.Compilation
import LoopCapture.Proofs.Wrapping.Once
import LoopCapture.Proofs.Wrapping.SecondRun

/-!
# Compilation in both modes

Whether loops are to be wrapped or captures to be reported, the first capture of a program leaves a
trace: a wrapped loop or a diagnostic. So both modes agree on the programs without captures, and
give back their texts as they are.
-/

set_option autoImplicit false

namespace LoopCapture

open Outline Relation

/-! ## Diagnostics -/

/-- Reports of errors only, as the pass makes them. -/
def Report.Errors (report : Report) : Prop := ∀ d ∈ report.diagnostics, d.isError = true

theorem Report.Errors.foldl {report : Report} (errors : report.Errors) {added : List Diagnostic}
    (all : ∀ d ∈ added, d.isError = true) : (added.foldl .add report).Errors := by
  induction added generalizing report with
  | nil => exact errors
  | cons first rest ih =>
      rw [List.foldl_cons]
      refine ih ?_ fun d member => all d (List.mem_cons_of_mem _ member)
      intro d member
      rcases List.mem_append.mp member with old | new
      · exact errors d old
      · rw [List.mem_singleton.mp new]
        exact all first List.mem_cons_self

theorem Report.Errors.hasErrors_iff {report : Report} (errors : report.Errors) :
    report.hasErrors = true ↔ report.diagnostics ≠ [] := by
  rw [hasErrors, List.any_eq_true]
  constructor
  · rintro ⟨d, member, -⟩ none
    rw [none] at member
    cases member
  · intro some
    obtain ⟨d, member⟩ := List.exists_mem_of_ne_nil _ some
    exact ⟨d, member, errors d member⟩

namespace Wrapping

theorem complaint_spec {outline : Outline} {mode : Mode} {captures : List Capture} {d : Diagnostic}
    (member : d ∈ complaints outline mode captures) :
    d.isError = true ∧ d.phase = some "transform" := by
  obtain ⟨entry, -, complained⟩ := List.mem_filterMap.mp member
  split at complained
  · cases complained
  · unfold Capture.complaint? at complained
    split at complained
    · obtain rfl := Option.some.inj complained
      exact ⟨rfl, rfl⟩
    · split at complained
      · obtain rfl := Option.some.inj complained
        exact ⟨rfl, rfl⟩
      · obtain ⟨obstacle, -, rfl⟩ := Option.map_eq_some_iff.mp complained
        exact ⟨rfl, rfl⟩

/-! ## Programs without captures -/

variable {source : List Char} {program : Program}

theorem eq_of_steps_of_wrapped_eq_nil {outline : Outline} {start state : Wrapping}
    (steps : ReflTransGen (Step outline) start state) (unwrapped : state.wrapped = []) :
    state = start := by
  cases steps with
  | refl => rfl
  | tail _ step =>
      cases step
      simp [wrap] at unwrapped

theorem wrappedLoops_report (outline : Outline) (captures : List Capture) :
    wrappedLoops outline .report captures = [] := by
  have none : captures.filter (·.wraps outline .report) = [] :=
    List.filter_eq_nil_iff.mpr fun capture _ => by simp [Capture.wraps]
  simp only [wrappedLoops, none]
  rfl

theorem captures_eq_nil_iff (parsed : Program.ofText source = .ok program) (mode : Mode) :
    (ofProgram program).captures (.ofOutline (ofProgram program)) = [] ↔
      wrappedLoops (ofProgram program) mode
          ((ofProgram program).captures (.ofOutline (ofProgram program))) = [] ∧
        complaints (ofProgram program) mode
          ((ofProgram program).captures (.ofOutline (ofProgram program))) = [] := by
  constructor
  · intro none
    rw [none]
    exact ⟨rfl, rfl⟩
  · rintro ⟨unwrapped, silent⟩
    by_contra some
    obtain ⟨capture, member⟩ := List.exists_mem_of_ne_nil _ some
    refine complaints_ne_nil member ?_ (wraps_iff parsed mode member) silent
    simp [unwrapped]

end Wrapping

theorem Insertions.render_ofSource (source : String) : (ofSource source.toList).render = source := by
  simp [render, ofSource, inOrder, splice, slice]

/-! ## Compilations -/

namespace Compilation

variable {source : String} {program : Program}

theorem ofProgram_eq {text : List Char}
    (resolved : (Resolution.ofOutline (.ofProgram program)).conflicts = []) (options : Options)
    (file : Option String) :
    let final := Wrapping.run options.mode (.ofOutline text (.ofProgram program), .empty file)
    ofProgram options file text program =
      ⟨if final.2.hasErrors then none else some final.1.insertions.render, final.2, some final.1⟩ := by
  have start : (Wrapping.ofOutline text (.ofProgram program)).resolution.conflicts = [] := resolved
  simp only [ofProgram, start, List.foldl_nil]
  rfl

theorem diagnostics_foldl_eq_nil_iff (complaints : List Diagnostic) (file : Option String) :
    (complaints.foldl .add (.empty file) : Report).diagnostics = [] ↔ complaints = [] := by
  have lengths := Wrapping.length_diagnostics_foldl complaints (.empty file)
  rw [← List.length_eq_zero_iff, lengths, ← List.length_eq_zero_iff]
  simp [Report.empty]

/-- What a compilation of a program without redeclarations gives. -/
theorem compile_eq (parsed : Program.ofText source.toList = .ok program)
    (resolved : (Resolution.ofOutline (.ofProgram program)).conflicts = []) (options : Options)
    (file : Option String) :
    let outline := Outline.ofProgram program
    let complaints := Wrapping.complaints outline options.mode (outline.captures (.ofOutline outline))
    let final := (Wrapping.run options.mode (.ofOutline source.toList outline, .empty file)).1
    compile options file source = .ok
      ⟨if complaints = [] then some final.insertions.render else none,
        complaints.foldl .add (.empty file), some final⟩ := by
  intro outline complaints final
  obtain ⟨report, same⟩ : ∃ report : Report, report = complaints.foldl .add (.empty file) := ⟨_, rfl⟩
  have told : (Wrapping.run options.mode (.ofOutline source.toList outline, .empty file)).2 = report :=
    (Wrapping.visited_run parsed options.mode (.empty file)).report.trans same.symm
  have errors : report.Errors := by
    rw [same]
    exact Report.Errors.foldl (by simp [Report.Errors, Report.empty])
      fun _ member => (Wrapping.complaint_spec member).1
  have erroneous : report.hasErrors = true ↔ complaints ≠ [] := by
    rw [errors.hasErrors_iff, same, Ne, diagnostics_foldl_eq_nil_iff]
  rw [← same]
  simp only [compile, parsed]
  rw [ofProgram_eq resolved, told]
  by_cases silent : complaints = []
  · have clean : report.hasErrors = false :=
      Bool.eq_false_iff.mpr fun some => erroneous.mp some silent
    rw [clean, if_pos silent]
    rfl
  · rw [erroneous.mpr silent, if_neg silent]
    rfl

/-- The loops that a compilation has wrapped are listed as nodes. -/
theorem rewritten_eq_nil_iff (parsed : Program.ofText source.toList = .ok program) (mode : Mode)
    (report : Report) (output : Option String) (told : Report) :
    let final := (Wrapping.run mode (.ofOutline source.toList (.ofProgram program), report)).1
    rewritten ⟨output, told, some final⟩ = [] ↔ final.wrapped = [] := by
  intro final
  obtain ⟨reached, targets, tally⟩ := Wrapping.tally_run parsed mode report
  have nodes := tally.nodes (Outline.regular_of_ofText parsed) reached.outline_eq
  show List.filterMap _ final.wrapped = [] ↔ _
  rw [nodes, tally.wrapped, List.map_eq_nil_iff, List.map_eq_nil_iff]

theorem compile_outcome (parsed : Program.ofText source.toList = .ok program)
    (resolved : (Resolution.ofOutline (.ofProgram program)).conflicts = []) (mode : Mode)
    (file : Option String) :
    let outline := Outline.ofProgram program
    let captures := outline.captures (.ofOutline outline)
    ∃ result final, compile ⟨mode⟩ file source = .ok result ∧ result.program = some final ∧
      (result.output.isSome = true ↔ Wrapping.complaints outline mode captures = []) ∧
      (result.report.diagnostics = [] ↔ Wrapping.complaints outline mode captures = []) ∧
      (result.rewritten = [] ↔ Wrapping.wrappedLoops outline mode captures = []) ∧
      final.wrapped = Wrapping.wrappedLoops outline mode captures ∧
      (result.rewritten = [] → final.insertions = .ofSource source.toList) ∧
      (result.output.isSome = true → result.rewritten = [] → result.output = some source) := by
  intro outline captures
  have visited := Wrapping.visited_run parsed mode (.empty file)
  have listed := rewritten_eq_nil_iff parsed mode (.empty file)
  have wrapped := visited.wrapped
  have unchanged (none : (Wrapping.run mode (.ofOutline source.toList outline, .empty file)).1.wrapped = []) :=
    Wrapping.eq_of_steps_of_wrapped_eq_nil (Wrapping.steps_run rfl mode (.empty file)) none
  refine ⟨_, _, compile_eq parsed resolved ⟨mode⟩ file, rfl, ?_, ?_, ?_, wrapped, ?_, ?_⟩
  · dsimp only
    split
    · rename_i silent
      exact ⟨fun _ => silent, fun _ => rfl⟩
    · rename_i loud
      constructor
      · intro absent
        cases absent
      · intro silent
        exact absurd silent loud
  · exact diagnostics_foldl_eq_nil_iff _ file
  · exact (listed _ _).trans (by rw [wrapped]; rfl)
  · intro none
    rw [unchanged ((listed _ _).mp none)]
    rfl
  · intro present none
    dsimp only at present ⊢
    split at present
    · rename_i silent
      rw [if_pos silent, unchanged ((listed _ _).mp none)]
      exact congrArg some (Insertions.render_ofSource source)
    · cases present

/-- Both modes give back the text of a program without captures, and no other text is accepted
without a loop being wrapped. Reporting captures leaves the program alone. -/
theorem compile_modes (parsed : Program.ofText source.toList = .ok program)
    (resolved : (Resolution.ofOutline (.ofProgram program)).conflicts = []) (file : Option String) :
    ∃ reporting wrapping, compile ⟨.report⟩ file source = .ok reporting ∧
      compile ⟨.wrap⟩ file source = .ok wrapping ∧
      (reporting.output.isSome = true ↔
        wrapping.output.isSome = true ∧ wrapping.rewritten = []) ∧
      (reporting.output.isSome = true →
        reporting.output = some source ∧ wrapping.output = some source) ∧
      (∀ result ∈ [reporting, wrapping],
        (result.output.isSome = true ↔ result.report.diagnostics = []) ∧
        (result.output.isSome = true → result.rewritten = [] → result.output = some source)) ∧
      reporting.rewritten = [] ∧
      ∃ final, reporting.program = some final ∧ final.wrapped = [] ∧ final.insertions.edits = [] := by
  obtain ⟨reporting, final, reported, last, present, told, listed, wrapped, edits, text⟩ :=
    compile_outcome parsed resolved .report file
  obtain ⟨wrapping, _, compiled, -, presentToo, toldToo, listedToo, -, -, textToo⟩ :=
    compile_outcome parsed resolved .wrap file
  have none := Wrapping.captures_eq_nil_iff parsed .report
  have noneToo := Wrapping.captures_eq_nil_iff parsed .wrap
  have nothing := Wrapping.wrappedLoops_report (.ofProgram program)
    (Outline.captures (.ofProgram program) (.ofOutline (.ofProgram program)))
  have unwrapped := listed.mpr nothing
  have agree : reporting.output.isSome = true ↔
      wrapping.output.isSome = true ∧ wrapping.rewritten = [] := by
    rw [present, presentToo, listedToo, and_comm, ← noneToo, none, nothing]
    simp
  refine ⟨reporting, wrapping, reported, compiled, agree, fun some => ?_, ?_, unwrapped, final,
    last, wrapped.trans nothing, by rw [edits unwrapped]; rfl⟩
  · obtain ⟨someToo, untouched⟩ := agree.mp some
    exact ⟨text some unwrapped, textToo someToo untouched⟩
  · simp only [List.mem_cons, List.not_mem_nil, or_false, forall_eq_or_imp, forall_eq]
    exact ⟨⟨present.trans told.symm, text⟩, presentToo.trans toldToo.symm, textToo⟩

/-- A closure over a variable that a loop changes but does not declare. -/
theorem compile_modes_outer : ∃ reporting wrapping,
    compile ⟨.report⟩ none "let n = 0; for (const x of xs) { n += x; } f(() => n);" = .ok reporting ∧
    compile ⟨.wrap⟩ none "let n = 0; for (const x of xs) { n += x; } f(() => n);" = .ok wrapping ∧
    reporting.output = some "let n = 0; for (const x of xs) { n += x; } f(() => n);" ∧
    wrapping.output = some "let n = 0; for (const x of xs) { n += x; } f(() => n);" := by
  obtain ⟨source, same⟩ : ∃ source, source =
    "let n = 0; for (const x of xs) { n += x; } f(() => n);" := ⟨_, rfl⟩
  have checked : ((Program.ofText source.toList).toOption.any fun program =>
        (Resolution.ofOutline (.ofProgram program)).conflicts.isEmpty &&
          (ofProgram ⟨.report⟩ none source.toList program).output.isSome) = true := by
    rw [same]
    decide +kernel
  rw [← same]
  obtain ⟨program, parsed, checked⟩ := Program.exists_of_any checked
  simp only [Bool.and_eq_true, List.isEmpty_iff] at checked
  obtain ⟨reporting, wrapping, reported, wrapped, -, texts, -⟩ :=
    compile_modes parsed checked.1 none
  refine ⟨reporting, wrapping, reported, wrapped, texts ?_⟩
  simp only [compile, parsed] at reported
  exact Except.ok.inj reported ▸ checked.2

end Compilation

end LoopCapture
