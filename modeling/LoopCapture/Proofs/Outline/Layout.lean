import LoopCapture.Proofs.Outline.Sites

/-!
# Places of the nodes of an outline

In the shape of a program text no place is empty, the places of the nodes under a node lie one
after the other inside its own, a loop starts before everything under it, and the braces of a block
stand around everything under it. So of two nodes one lies above the other wherever the place of one
lies within the place of the other.
-/

set_option autoImplicit false

namespace LoopCapture

/-- Forms that start with a token before all nodes under them, as far as that matters here. -/
def Form.leads : Form → Bool
  | .loop _ => true
  | .block => true
  | _ => false

theorem Form.leads_of_isLoop {form : Form} (loop : form.isLoop = true) : form.leads = true := by
  cases form <;> simp_all [Form.isLoop, Form.leads]

/-- The offset from which on nodes can stand under a label. -/
def Label.inside (label : Label) : Nat :=
  if label.form.leads then label.loc.start + 1 else label.loc.start

/-- The offset up to which nodes can stand under a label. -/
def Label.ending (label : Label) : Nat :=
  if label.form = .block then label.loc.stop - 1 else label.loc.stop

theorem Label.start_le_inside (label : Label) : label.loc.start ≤ label.inside := by
  unfold Label.inside
  split <;> omega

theorem Label.inside_le (label : Label) : label.inside ≤ label.loc.start + 1 := by
  unfold Label.inside
  split <;> omega

theorem Label.stop_le_ending (label : Label) : label.loc.stop ≤ label.ending + 1 := by
  unfold Label.ending
  split <;> omega

theorem Label.ending_le_stop (label : Label) : label.ending ≤ label.loc.stop := by
  unfold Label.ending
  split <;> omega

namespace Outline

open Tree

mutual

/-- The places of a shape are in order. -/
def Laid : Tree Label → Prop
  | .node label children =>
    label.loc.start < label.loc.stop ∧ LaidAll label.inside label.ending children

/-- The places of shapes are in order, one after the other between two offsets. -/
def LaidAll : Nat → Nat → List (Tree Label) → Prop
  | start, stop, [] => start ≤ stop
  | start, stop, tree :: rest =>
    start ≤ tree.label.loc.start ∧ Laid tree ∧ LaidAll tree.label.loc.stop stop rest

end

theorem Laid.start_lt {tree : Tree Label} (laid : Laid tree) :
    tree.label.loc.start < tree.label.loc.stop := by
  obtain ⟨label, children⟩ := tree
  exact laid.1

/-! ## Rows of shapes -/

namespace LaidAll

theorem start_le {trees : List (Tree Label)} {start stop : Nat} (laid : LaidAll start stop trees) :
    start ≤ stop := by
  induction trees generalizing start with
  | nil => exact laid
  | cons tree rest ih =>
      obtain ⟨after, here, later⟩ := laid
      have inner := here.start_lt
      have outer := ih later
      omega

theorem mono {trees : List (Tree Label)} {start stop first last : Nat} (before : first ≤ start)
    (after : stop ≤ last) (laid : LaidAll start stop trees) : LaidAll first last trees := by
  induction trees generalizing start first with
  | nil => exact before.trans (Nat.le_trans laid after)
  | cons tree rest ih =>
      obtain ⟨first, here, later⟩ := laid
      exact ⟨before.trans first, here, ih (Nat.le_refl _) later⟩

theorem append {trees rest : List (Tree Label)} {start middle stop : Nat}
    (laid : LaidAll start middle trees) (others : LaidAll middle stop rest) :
    LaidAll start stop (trees ++ rest) := by
  induction trees generalizing start with
  | nil => exact others.mono laid (Nat.le_refl _)
  | cons tree trees ih => exact ⟨laid.1, laid.2.1, ih laid.2.2⟩

theorem single {tree : Tree Label} {start stop : Nat} (before : start ≤ tree.label.loc.start)
    (laid : Laid tree) (after : tree.label.loc.stop ≤ stop) : LaidAll start stop [tree] :=
  ⟨before, laid, after⟩

end LaidAll

/-! ## Paths -/

/-- A label lies within the label above it, behind the start of a loop and between the braces of a
block. -/
def Inner (child parent : Label) : Prop :=
  parent.inside ≤ child.loc.start ∧ child.loc.stop ≤ parent.ending

mutual

theorem Laid.edges : ∀ {tree : Tree Label}, Laid tree → Edges Inner tree
  | .node _ _, laid => LaidAll.edges (Nat.le_refl _) laid.2

theorem LaidAll.edges {parent : Label} : ∀ {trees : List (Tree Label)} {start : Nat},
    parent.inside ≤ start → LaidAll start parent.ending trees → EdgesUnder Inner parent trees
  | [], _, _, _ => trivial
  | tree :: rest, start, behind, laid => by
      obtain ⟨before, here, later⟩ := laid
      have last := LaidAll.start_le later
      have more := here.start_lt
      exact ⟨⟨behind.trans before, last⟩, Laid.edges here, LaidAll.edges (by omega) later⟩

end

/-- The nodes above a node of an outline start no later and end no earlier. -/
theorem loc_of_mem_path {path : List Node} {lower : Node}
    (chained : List.IsChain (NodeUnder Inner) (lower :: path)) :
    ∀ upper ∈ path, upper.toLabel.inside ≤ lower.loc.start ∧
      lower.loc.stop ≤ upper.toLabel.ending ∧ upper.id < lower.id := by
  induction path generalizing lower with
  | nil => simp
  | cons next path ih =>
      obtain ⟨⟨inner, before⟩, rest⟩ := List.isChain_cons_cons.mp chained
      intro upper member
      rcases List.mem_cons.mp member with rfl | further
      · exact ⟨inner.1, inner.2, before⟩
      · obtain ⟨behind, last, earlier⟩ := ih rest upper further
        have more := next.toLabel.start_le_inside
        have less := next.toLabel.ending_le_stop
        have inside := inner.1
        have outside := inner.2
        exact ⟨by omega, by omega, by omega⟩

/-! ## Nodes within each other -/

mutual

theorem Laid.bounds {above : List Node} {next : Nat} : ∀ {tree : Tree Label}, Laid tree →
    ∀ site ∈ (number above next tree).1.preorder,
      tree.label.loc.start ≤ site.node.loc.start ∧ site.node.loc.start < site.node.loc.stop ∧
        site.node.loc.stop ≤ tree.label.loc.stop ∧
          site.node.toLabel.inside ≤ site.node.toLabel.ending
  | .node label children, laid, site, member => by
      rcases List.mem_cons.mp member with rfl | below
      · exact ⟨Nat.le_refl _, laid.1, Nat.le_refl _, LaidAll.start_le laid.2⟩
      · obtain ⟨first, more, last, braces⟩ := LaidAll.bounds laid.2 site below
        exact ⟨label.start_le_inside.trans first, more, last.trans label.ending_le_stop, braces⟩

theorem LaidAll.bounds {start stop : Nat} {above : List Node} {next : Nat} :
    ∀ {trees : List (Tree Label)}, LaidAll start stop trees →
    ∀ site ∈ preorderAll (numberAll above next trees).1,
      start ≤ site.node.loc.start ∧ site.node.loc.start < site.node.loc.stop ∧
        site.node.loc.stop ≤ stop ∧ site.node.toLabel.inside ≤ site.node.toLabel.ending
  | [], laid, site, member => by simp [numberAll, preorderAll] at member
  | tree :: rest, laid, site, member => by
      obtain ⟨before, here, later⟩ := laid
      have more := here.start_lt
      have last := LaidAll.start_le later
      rcases List.mem_append.mp member with inside | outside
      · obtain ⟨first, nonempty, ends, braces⟩ := Laid.bounds here site inside
        exact ⟨by omega, nonempty, by omega, braces⟩
      · obtain ⟨first, nonempty, rest⟩ := LaidAll.bounds later site outside
        exact ⟨by omega, nonempty, rest⟩

end

/-- Two places that are not empty and have nothing in common. -/
def Apart (first second : Loc) : Prop :=
  first.start < first.stop ∧ second.start < second.stop ∧
    (first.stop ≤ second.start ∨ second.stop ≤ first.start)

mutual

/-- Of two nodes one lies above the other, or their places have nothing in common. -/
theorem Laid.apart {above : List Node} {next : Nat} : ∀ {tree : Tree Label}, Laid tree →
    ∀ first ∈ (number above next tree).1.preorder, ∀ second ∈ (number above next tree).1.preorder,
      second.node ∈ first.path ∨ first.node ∈ second.path ∨ Apart first.node.loc second.node.loc
  | .node label children, laid, first, firstMember, second, secondMember => by
      have suffix {site : Site}
          (member : site ∈ (number above next (.node label children)).1.preorder) :
          ({ label with id := next } : Node) ∈ site.path :=
        ((rooted_number above next (.node label children)).path_suffix member).subset
          List.mem_cons_self
      rcases List.mem_cons.mp firstMember with rfl | firstBelow
      · exact .inr (.inl (suffix secondMember))
      · rcases List.mem_cons.mp secondMember with rfl | secondBelow
        · exact .inl (suffix firstMember)
        · exact LaidAll.apart laid.2 first firstBelow second secondBelow

theorem LaidAll.apart {start stop : Nat} {above : List Node} {next : Nat} :
    ∀ {trees : List (Tree Label)}, LaidAll start stop trees →
    ∀ first ∈ preorderAll (numberAll above next trees).1,
    ∀ second ∈ preorderAll (numberAll above next trees).1,
      second.node ∈ first.path ∨ first.node ∈ second.path ∨ Apart first.node.loc second.node.loc
  | [], laid, first, firstMember, second, secondMember => by
      simp [numberAll, preorderAll] at firstMember
  | tree :: rest, laid, first, firstMember, second, secondMember => by
      obtain ⟨before, here, later⟩ := laid
      rcases List.mem_append.mp firstMember with firstHere | firstLater
      · rcases List.mem_append.mp secondMember with secondHere | secondLater
        · exact Laid.apart here first firstHere second secondHere
        · have one := Laid.bounds here first firstHere
          have other := LaidAll.bounds later second secondLater
          exact .inr (.inr ⟨one.2.1, other.2.1, .inl (by omega)⟩)
      · rcases List.mem_append.mp secondMember with secondHere | secondLater
        · have one := Laid.bounds here second secondHere
          have other := LaidAll.bounds later first firstLater
          exact .inr (.inr ⟨other.2.1, one.2.1, .inr (by omega)⟩)
        · exact LaidAll.apart later first firstLater second secondLater

end

end Outline

end LoopCapture
