import LoopCapture.Proofs.Concrete.Names
import LoopCapture.Proofs.Outline.Grammar
import LoopCapture.Proofs.Token.Scanning
import Mathlib.Data.List.Nodup

/-!
# Outlines of program texts

What the scopes and the pass over them rely on: the numbers of the sites are their positions, every
site knows the nodes above it, and places and forms of nodes agree with those of the nodes above
them. The outline of every program that was read from a text has these properties.
-/

set_option autoImplicit false

namespace LoopCapture

/-- The nodes of statements are in order and stand at their tokens. -/
theorem Concrete.laid_of_spelled {source : List Char} {tokens : List Token}
    {stray : Option (Char × Cursor)} {trees : List Concrete.Stmt}
    (scanned : Tokens.ofText source = ⟨tokens, stray⟩) (spelled : stmtsSpell trees tokens []) :
    Outline.LaidAll 0 source.length (stmtShapes trees) ∧ AnchoredAll tokens (stmtShapes trees) := by
  let start : Loc := ⟨1, 1, 0, 0⟩
  have ordered : Token.Ordered source.length start.stop tokens := Tokens.ordered_ofText scanned
  have spread := spread_stmts spelled ⟨ordered, List.Subset.refl _⟩
  exact ⟨spread.row.mono (Nat.le_refl _) spread.ahead.ordered, spread.anchored⟩

/-- The places of a program that was read from a text are in order. -/
theorem Program.laid_of_ofText {source : List Char} {program : Program}
    (parsed : Program.ofText source = .ok program) :
    Outline.LaidAll 0 program.loc.stop (Outline.stmts program.body) := by
  obtain ⟨tokens, trees, scanned, spelled, -, built, loc⟩ := Program.ofText_eq_ok parsed
  rw [Build.shape_stmts built, loc]
  exact (Concrete.laid_of_spelled scanned spelled).1

/-- No identifier of a program is a reserved word. -/
theorem Program.names_unreserved {source : List Char} {program : Program}
    (parsed : ofText source = .ok program) {name : String}
    (used : name ∈ Outline.namesAll (Outline.stmts program.body)) :
    Keyword.ofText? name = none := by
  obtain ⟨tokens, trees, scanned, spelled, -, built, -⟩ := ofText_eq_ok parsed
  rw [Build.shape_stmts built] at used
  obtain ⟨label, member, form⟩ := Outline.exists_label_of_mem_names used
  have token := ((Concrete.laid_of_spelled scanned spelled).2 label member).name name form
  have same : Lexer.scan source.length .origin source = ⟨tokens, none⟩ := scanned
  exact Lexer.unreserved_scan source.length .origin source _ (by rw [same]; exact token) name rfl

namespace Outline

open Tree

/-- An outline whose numbers, paths, places and forms agree. -/
structure Regular (outline : Outline) : Prop where
  numbered : outline.sites.map (·.node.id) = List.range outline.sites.length
  rooted : Rooted [] outline
  places : ∀ site ∈ outline.sites, List.IsChain (NodeUnder Inner) site.path
  grammar : ∀ site ∈ outline.sites, List.IsChain (NodeUnder Label.Under) site.path
  apart : ∀ first ∈ outline.sites, ∀ second ∈ outline.sites,
    second.node ∈ first.path ∨ first.node ∈ second.path ∨ Apart first.node.loc second.node.loc
  loops : ∀ loop ∈ outline.subtrees, loop.label.node.isLoop = true →
    ∃ above next slot body, loop = (number above next (stmt slot body)).1

theorem regular_of_laid {program : Program} (start : program.loc.start = 0)
    (laid : LaidAll 0 program.loc.stop (stmts program.body)) : Regular (ofProgram program) where
  numbered := by
    have ids := ids_ofProgram program
    have lengths := congrArg List.length ids
    simp only [List.length_map, List.length_range] at lengths
    rw [ids, lengths]
  rooted := rooted_ofProgram program
  places site member := by
    have edges : EdgesUnder Inner ⟨.plain, .program, program.loc⟩ (stmts program.body) :=
      LaidAll.edges start.le (by simpa [Label.ending] using laid)
    exact chain_ofProgram edges member
  grammar site member := chain_ofProgram (edges_shape program) member
  apart first firstMember second secondMember := by
    have root {site : Site} (member : site ∈ (ofProgram program).sites) :
        (ofProgram program).label.node ∈ site.path :=
      ((rooted_ofProgram program).path_suffix member).subset List.mem_cons_self
    rcases List.mem_cons.mp firstMember with rfl | firstBelow
    · exact .inr (.inl (root secondMember))
    · rcases List.mem_cons.mp secondMember with rfl | secondBelow
      · exact .inl (root firstMember)
      · exact laid.apart first firstBelow second secondBelow
  loops _ := exists_stmt_of_isLoop

/-- The outline of a program that was read from a text is regular. -/
theorem regular_of_ofText {source : List Char} {program : Program}
    (parsed : Program.ofText source = .ok program) : Regular (ofProgram program) := by
  obtain ⟨-, -, -, -, -, -, loc⟩ := Program.ofText_eq_ok parsed
  exact regular_of_laid (by rw [loc]) (Program.laid_of_ofText parsed)

namespace Regular

variable {outline : Outline} (regular : Regular outline)

include regular

theorem eq_of_id {first second : Site} (firstMember : first ∈ outline.sites)
    (secondMember : second ∈ outline.sites) (same : first.node.id = second.node.id) :
    first = second := by
  have distinct : (outline.sites.map (·.node.id)).Nodup := regular.numbered ▸ List.nodup_range
  exact List.inj_on_of_nodup_map distinct firstMember secondMember same

theorem subtree_eq_of_id {first second : Outline} (firstInside : first ∈ outline.subtrees)
    (secondInside : second ∈ outline.subtrees)
    (same : first.label.node.id = second.label.node.id) : first = second := by
  have distinct : (outline.subtrees.map (·.label.node.id)).Nodup := by
    have numbered := regular.numbered
    rw [sites, preorder_eq_map, List.map_map] at numbered
    exact numbered ▸ List.nodup_range
  exact List.inj_on_of_nodup_map distinct firstInside secondInside same

theorem subtree?_of_mem {part : Outline} (inside : part ∈ outline.subtrees) :
    outline.subtree? part.label.node.id = some part := by
  let test (site : Site) : Bool := site.node.id == part.label.node.id
  have same : test part.label = true := beq_self_eq_true _
  obtain ⟨found, searched⟩ :=
    Option.isSome_iff_exists.mp (Tree.isSome_find? same (label_mem_sites inside))
  obtain ⟨among, numbered⟩ := Tree.find?_eq_some searched
  obtain rfl := regular.subtree_eq_of_id among inside (beq_iff_eq.mp numbered)
  exact searched

/-- Where the place of a node lies within the place of another one, one lies above the other. -/
theorem comparable {inner outer : Site} (innerMember : inner ∈ outline.sites)
    (outerMember : outer ∈ outline.sites) (within : inner.node.loc.within outer.node.loc = true) :
    outer.node ∈ inner.path ∨ inner.node ∈ outer.path := by
  rcases regular.apart inner innerMember outer outerMember with below | upper | apart
  · exact .inl below
  · exact .inr upper
  · obtain ⟨one, other, disjoint⟩ := apart
    simp only [Loc.within, Bool.and_eq_true, decide_eq_true_eq] at within
    omega

theorem mem_of_suffix {site : Site} (member : site ∈ outline.sites) {upper : Node}
    {above : List Node} (suffix : upper :: above <:+ site.path) : ⟨upper, above⟩ ∈ outline.sites :=
  regular.rooted.mem_of_suffix member suffix (Nat.zero_le _)

theorem suffix_of_mem {site upper : Site} (member : site ∈ outline.sites)
    (upperMember : upper ∈ outline.sites) (among : upper.node ∈ site.path) :
    upper.path <:+ site.path := by
  obtain ⟨below, above, split⟩ := List.append_of_mem among
  have suffix : upper.node :: above <:+ site.path := ⟨below, split.symm⟩
  have same : (⟨upper.node, above⟩ : Site) = upper :=
    regular.eq_of_id (regular.mem_of_suffix member suffix) upperMember rfl
  rw [← same]
  exact suffix

theorem path_suffix {part : Outline} (inside : part ∈ outline.subtrees) {site : Site}
    (member : site ∈ part.sites) : part.label.path <:+ site.path :=
  (regular.rooted.subtree inside).path_suffix member

theorem bodies {loop : Outline} (inside : loop ∈ outline.subtrees)
    (isLoop : loop.label.node.isLoop = true) : ∃ body, loop.loopBody? = some body := by
  obtain ⟨above, next, slot, stated, rfl⟩ := regular.loops loop inside isLoop
  rw [Node.isLoop, form_number] at isLoop
  obtain ⟨body, bodied⟩ := loopBody?_of_isLoop isLoop
  obtain ⟨free, found⟩ := loopBody?_stmt bodied above next
  exact ⟨_, found⟩

/-- The body of a loop stands directly under the loop and behind its start. -/
theorem body {loop body : Outline} (inside : loop ∈ outline.subtrees)
    (found : loop.loopBody? = some body) :
    body ∈ outline.subtrees ∧ body.label.above = loop.label.path ∧
      body.label.node.slot = .loopBody ∧ loop.label.node.isLoop = true ∧
        loop.label.node.loc.start < body.label.node.loc.start := by
  have among := List.mem_of_find?_eq_some found
  have passed := List.find?_some found
  have slot : body.label.node.slot = .loopBody := beq_iff_eq.mp passed
  have inner := child_mem_subtrees inside among
  have above : body.label.above = loop.label.path :=
    ((regular.rooted.subtree inside).child among).above_eq
  have member := label_mem_sites inner
  have isLoop : loop.label.node.isLoop = true := by
    have chained := regular.grammar body.label member
    rw [Site.path, above] at chained
    exact (List.isChain_cons_cons.mp chained).1.1.loopBody slot
  refine ⟨inner, above, slot, isLoop, ?_⟩
  have chained := regular.places body.label member
  rw [Site.path, above] at chained
  have behind := (List.isChain_cons_cons.mp chained).1.1.1
  have isLoopForm : loop.label.node.form.isLoop = true := isLoop
  rw [Label.inside, if_pos (Form.leads_of_isLoop isLoopForm)] at behind
  exact behind

/-- The subtrees whose path leads through a node are the subtrees below it. -/
theorem mem_subtrees_of_suffix {part whole : Outline} (inside : part ∈ outline.subtrees)
    (member : whole ∈ outline.subtrees) (suffix : part.label.path <:+ whole.label.path) :
    whole ∈ part.subtrees := by
  obtain ⟨size, bound⟩ : ∃ size, whole.label.path.length ≤ size := ⟨_, Nat.le_refl _⟩
  induction size generalizing whole with
  | zero => simp [Site.path] at bound
  | succ size ih =>
      rcases List.suffix_cons_iff.mp suffix with same | further
      · have equal : part = whole := by
          refine regular.subtree_eq_of_id inside member ?_
          exact congrArg Node.id (List.cons.inj same).1
        exact equal ▸ Tree.self_mem_subtrees part
      · rcases Tree.exists_parent _ member with rfl | ⟨upper, upperInside, child⟩
        · rw [regular.rooted.above_eq] at further
          exact absurd (List.suffix_nil.mp further) (List.cons_ne_nil _ _)
        · have above := ((regular.rooted.subtree upperInside).child child).above_eq
          rw [above] at further
          have shorter : upper.label.path.length ≤ size := by
            rw [Site.path, above, List.length_cons] at bound
            exact Nat.le_of_succ_le_succ bound
          exact Tree.child_mem_subtrees (ih upperInside further shorter) child

/-- A node lies within every node on its path. -/
theorem within_of_suffix {lower upper : Site} (member : lower ∈ outline.sites)
    (suffix : upper.path <:+ lower.path) : lower.node.loc.within upper.node.loc = true := by
  simp only [Loc.within, Bool.and_eq_true, decide_eq_true_eq]
  rcases List.mem_cons.mp (suffix.subset List.mem_cons_self) with same | above
  · rw [same]
    exact ⟨Nat.le_refl _, Nat.le_refl _⟩
  · obtain ⟨first, last, -⟩ := loc_of_mem_path (regular.places lower member) upper.node above
    exact ⟨upper.node.toLabel.start_le_inside.trans first,
      last.trans upper.node.toLabel.ending_le_stop⟩

end Regular

end Outline

end LoopCapture
