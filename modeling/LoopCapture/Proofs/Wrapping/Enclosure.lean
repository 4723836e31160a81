import LoopCapture.Proofs.Wrapping.Stable

/-!
# Bodies between their heads and feet

The output is the source with a head before the body of each wrapped loop and a foot behind it. What
is inserted for the loops in the body comes between the two, and what is inserted for other loops
does not, even where several bodies end at one offset: there the inner loops are closed first. That
rule has one flaw. Between touching braces it puts the foot of a loop inside another loop before the
head.
-/

set_option autoImplicit false

namespace LoopCapture.Wrapping

open Outline Insertions

variable {outline : Outline} {target other : Target} {made : Placement} {source : List Char}

/-- The parts of a loop of an outline. -/
structure Target.Of (outline : Outline) (target : Target) : Prop where
  regular : Regular outline
  loop : target.loop ∈ outline.sites
  body : target.body.label ∈ outline.sites
  above : target.body.label.above = target.loop.path
  isLoop : target.loop.node.isLoop = true
  behind : target.loop.node.loc.start < target.body.label.node.loc.start
  nonempty : target.body.label.node.loc.start < target.body.label.node.loc.stop
  braces : target.body.label.node.toLabel.inside ≤ target.body.label.node.toLabel.ending

/-- Another loop stands in the body. -/
def Target.holds (target other : Target) : Bool := target.body.label.node ∈ other.loop.path

/-! ## Two loops -/

namespace Target.Of

theorem bounds (of : Of outline target) :
    target.body.label.node.loc.start ≤ target.bounds.1 ∧
      target.bounds.1 < target.body.label.node.loc.stop ∧ target.bounds.1 ≤ target.bounds.2 ∧
      target.body.label.node.loc.start < target.bounds.2 ∧
      target.bounds.2 ≤ target.body.label.node.loc.stop := by
  have nonempty := of.nonempty
  have braces := of.braces
  simp only [Target.bounds, Label.inside, Label.ending] at braces ⊢
  split
  · rename_i form
    simp only [form, Form.leads, if_true] at braces
    omega
  · omega

theorem nested (of : Of outline target) (inner : Of outline other)
    (held : target.holds other = true) :
    target.bounds.1 < other.bounds.1 ∧ other.bounds.1 < target.bounds.2 ∧
      other.bounds.2 ≤ target.bounds.2 ∧ target.loop.loopDepth < other.loop.loopDepth := by
  have suffix := of.regular.suffix_of_mem inner.loop of.body (of_decide_eq_true held)
  obtain ⟨-, last, -⟩ := loc_of_mem_path (of.regular.places _ inner.body) target.body.label.node
    (inner.above ▸ suffix.subset List.mem_cons_self)
  -- The body may itself be the other loop, which then starts at the head.
  obtain ⟨first, path⟩ : target.bounds.1 ≤ other.loop.node.loc.start ∧
      target.loop.path <:+ other.loop.above := by
    rcases List.suffix_cons_iff.mp suffix with same | above
    · obtain ⟨node, path⟩ := List.cons.inj same
      refine ⟨?_, path ▸ of.above ▸ List.suffix_rfl⟩
      have isLoop := inner.isLoop
      rw [← node] at isLoop ⊢
      rw [Target.bounds, if_neg]
      intro form
      simp [Node.isLoop, form, Form.isLoop] at isLoop
    · refine ⟨target.bounds_spec.2.1.trans ?_, of.above ▸ (List.suffix_cons _ _).trans above⟩
      exact (loc_of_mem_path (of.regular.places _ inner.loop) _ (above.subset List.mem_cons_self)).1
  obtain ⟨-, -, ends⟩ := target.bounds_spec
  have bounds := inner.bounds
  have behind := inner.behind
  have depth := path.sublist.countP_le (p := Node.isLoop)
  rw [Site.path, List.countP_cons, if_pos of.isLoop] at depth
  exact ⟨by omega, by omega, by omega, depth⟩

/-- Where the body of a loop ends right before the body of a loop that it does not hold, it stands in
the header of that loop. -/
theorem depth_pos (of : Of outline target) (later : Of outline other)
    (different : target.loop.node ≠ other.loop.node) (free : target.holds other = false)
    (touching : target.body.label.node.loc.stop = other.body.label.node.loc.start) :
    0 < target.loop.loopDepth := by
  rw [Target.holds, decide_eq_false_iff_not, Site.path, List.mem_cons, not_or] at free
  have nonempty := of.nonempty
  have nonemptyToo := later.nonempty
  have behind := later.behind
  obtain ⟨-, last, -⟩ := loc_of_mem_path (of.regular.places _ later.body) other.loop.node
    (later.above ▸ List.mem_cons_self)
  have ends := other.loop.node.toLabel.ending_le_stop
  rcases of.regular.apart _ of.body _ later.loop with header | held | ⟨-, -, apart⟩
  · rw [Site.path, of.above, Site.path] at header
    simp only [List.mem_cons, Ne.symm different, Ne.symm free.1, false_or] at header
    exact List.countP_pos_iff.mpr ⟨_, header, later.isLoop⟩
  · exact absurd (List.mem_cons.mp held) (not_or.mpr free)
  · omega

theorem holds_of_mem (of : Of outline target) (inner : Of outline other)
    (different : target.loop.node ≠ other.loop.node)
    (among : target.body.label.node ∈ other.body.label.path) : target.holds other = true := by
  rw [Site.path, inner.above] at among
  refine decide_eq_true ((List.mem_cons.mp among).resolve_left fun same => different ?_)
  have label := of.regular.eq_of_id of.body inner.body (congrArg Node.id same)
  exact (List.cons.inj (of.above.symm.trans ((congrArg Site.above label).trans inner.above))).1

/-- The requests for a loop in the body come between the head and the foot. -/
theorem within (of : Of outline target) (inner : Of outline other)
    (held : target.holds other = true) (member : made ∈ other.placements source) :
    target.bounds.1 < made.offset ∧ (made.offset < target.bounds.2 ∨
      made.offset = target.bounds.2 ∧ made.request.priority < -(target.loop.loopDepth : Int)) := by
  have bounds := inner.bounds
  have nested := of.nested inner held
  rcases List.mem_pair.mp member with rfl | rfl <;> dsimp only <;> omega

/-- The requests for any other loop come before the head or behind the foot. -/
theorem outside (of : Of outline target) (ofOther : Of outline other)
    (different : target.loop.node ≠ other.loop.node) (free : target.holds other = false)
    (member : made ∈ other.placements source) :
    made.offset < target.bounds.1 ∨ made.offset = target.bounds.1 ∧ made.request.priority < 0 ∨
      target.bounds.2 < made.offset ∨
      made.offset = target.bounds.2 ∧ -(target.loop.loopDepth : Int) < made.request.priority := by
  have bounds := of.bounds
  have boundsToo := ofOther.bounds
  cases held : other.holds target with
  | true =>
      have nested := ofOther.nested of held
      rcases List.mem_pair.mp member with rfl | rfl <;> dsimp only <;> omega
  | false =>
      rcases of.regular.apart _ of.body _ ofOther.body with upper | lower | ⟨-, -, before | behind⟩
      · exact absurd (ofOther.holds_of_mem of different.symm upper) (by simp [held])
      · exact absurd (of.holds_of_mem ofOther different lower) (by simp [free])
      · have positive := of.depth_pos ofOther different free
        rcases List.mem_pair.mp member with rfl | rfl <;> dsimp only <;> omega
      · have positive := ofOther.depth_pos of different.symm held
        rcases List.mem_pair.mp member with rfl | rfl <;> dsimp only <;> omega

end Target.Of

/-! ## All loops -/

theorem Tally.of {program : Program} {state : Wrapping} {targets : List Target}
    (parsed : Program.ofText source = .ok program)
    (tally : Tally (.ofOutline source (.ofProgram program)) state targets) :
    ∀ target ∈ targets, target.Of (.ofProgram program) := by
  intro target member
  have regular := regular_of_ofText parsed
  obtain ⟨loop, inside, fits⟩ := tally.among target member
  obtain ⟨bodied, isLoop, -⟩ := target?_eq_some fits
  obtain ⟨bodyInside, above, -, loops, behind⟩ := regular.body inside bodied
  obtain ⟨nonempty, -, braces⟩ := body_bounds parsed regular inside bodied
  rw [← isLoop] at above loops behind
  exact ⟨regular, isLoop ▸ label_mem_sites inside, label_mem_sites bodyInside, above, loops, behind,
    nonempty, braces⟩

end LoopCapture.Wrapping

namespace LoopCapture.Compilation

open Wrapping Insertions

end LoopCapture.Compilation
