import LoopCapture.Proofs.Outline.Numbering
import Mathlib.Data.List.Chain
import Mathlib.Data.List.Basic

/-!
# Sites of numbered outlines

The numbers of the sites are their positions in pre-order, and the path of a site leads through the
sites above it up to the root. What holds between each label of a shape and the label above it
holds along every path.
-/

set_option autoImplicit false

namespace LoopCapture

/-! ## Parts of trees -/

namespace Tree

variable {α : Type}
variable {test : α → Bool} {tree : Tree α}

mutual

/-- A tree and all trees under it, in pre-order. -/
def subtrees : Tree α → List (Tree α)
  | .node label children => .node label children :: subtreesAll children

def subtreesAll : List (Tree α) → List (Tree α)
  | [] => []
  | tree :: rest => subtrees tree ++ subtreesAll rest

end

theorem mem_subtreesAll {part : Tree α} {trees : List (Tree α)} :
    part ∈ subtreesAll trees ↔ ∃ tree ∈ trees, part ∈ tree.subtrees := by
  induction trees with
  | nil => simp [subtreesAll]
  | cons tree rest ih => simp [subtreesAll, ih]

theorem mem_subtrees {part : Tree α} :
    part ∈ tree.subtrees ↔ part = tree ∨ ∃ child ∈ tree.children, part ∈ child.subtrees := by
  obtain ⟨root, children⟩ := tree
  simp [subtrees, mem_subtreesAll, Tree.children]

theorem self_mem_subtrees (tree : Tree α) : tree ∈ tree.subtrees :=
  mem_subtrees.mpr (.inl rfl)

theorem mem_preorderAll {label : α} {trees : List (Tree α)} :
    label ∈ preorderAll trees ↔ ∃ tree ∈ trees, label ∈ tree.preorder := by
  induction trees with
  | nil => simp [preorderAll]
  | cons tree rest ih => simp [preorderAll, ih]

theorem mem_preorder {label : α} :
    label ∈ tree.preorder ↔ label = tree.label ∨ ∃ child ∈ tree.children, label ∈ child.preorder := by
  obtain ⟨root, children⟩ := tree
  simp [preorder, mem_preorderAll, Tree.label, Tree.children]

theorem label_mem_preorder (tree : Tree α) : tree.label ∈ tree.preorder :=
  mem_preorder.mpr (.inl rfl)

mutual

/-- What holds of a tree and is handed down to the trees under a node holds of all parts. -/
theorem forall_subtrees {motive : Tree α → Prop} : ∀ {tree : Tree α}, motive tree →
    (∀ part ∈ tree.subtrees, motive part → ∀ child ∈ part.children, motive child) →
    ∀ part ∈ tree.subtrees, motive part
  | .node label children, root, step, part, member => by
      rcases List.mem_cons.mp member with rfl | below
      · exact root
      · refine forall_subtreesAll (step _ List.mem_cons_self root) ?_ part below
        intro upper inside
        exact step upper (List.mem_cons_of_mem _ inside)

theorem forall_subtreesAll {motive : Tree α → Prop} : ∀ {trees : List (Tree α)},
    (∀ tree ∈ trees, motive tree) →
    (∀ part ∈ subtreesAll trees, motive part → ∀ child ∈ part.children, motive child) →
    ∀ part ∈ subtreesAll trees, motive part
  | tree :: rest, roots, step, part, member => by
      rcases List.mem_append.mp member with here | later
      · refine forall_subtrees (roots tree List.mem_cons_self) ?_ part here
        intro upper inside
        exact step upper (List.mem_append_left _ inside)
      · refine forall_subtreesAll (List.forall_mem_of_forall_mem_cons roots) ?_ part later
        intro upper inside
        exact step upper (List.mem_append_right _ inside)

end

theorem subtrees_subset : ∀ {part : Tree α}, part ∈ tree.subtrees → part.subtrees ⊆ tree.subtrees := by
  apply forall_subtrees
  · exact List.Subset.refl _
  · intro upper _ inside child among
    exact fun part below => inside (mem_subtrees.mpr (.inr ⟨child, among, below⟩))

theorem child_mem_subtrees {part child : Tree α} (inside : part ∈ tree.subtrees)
    (among : child ∈ part.children) : child ∈ tree.subtrees :=
  subtrees_subset inside (mem_subtrees.mpr (.inr ⟨child, among, self_mem_subtrees child⟩))

theorem exists_parent : ∀ part ∈ tree.subtrees,
    part = tree ∨ ∃ upper ∈ tree.subtrees, part ∈ upper.children := by
  apply forall_subtrees
  · exact .inl rfl
  · intro upper inside _ child among
    exact .inr ⟨upper, inside, among⟩

mutual

theorem preorder_eq_map : ∀ tree : Tree α, tree.preorder = tree.subtrees.map label
  | .node root children => by simp [preorder, subtrees, label, preorderAll_eq_map children]

theorem preorderAll_eq_map : ∀ trees : List (Tree α),
    preorderAll trees = (subtreesAll trees).map label
  | [] => rfl
  | tree :: rest => by
      simp [preorderAll, subtreesAll, preorder_eq_map tree, preorderAll_eq_map rest]

end

theorem exists_mem_subtrees {label : α} (member : label ∈ tree.preorder) :
    ∃ part ∈ tree.subtrees, part.label = label := by
  rwa [preorder_eq_map, List.mem_map] at member

theorem preorder_subset {part : Tree α} (inside : part ∈ tree.subtrees) :
    part.preorder ⊆ tree.preorder := by
  rw [preorder_eq_map, preorder_eq_map]
  exact List.map_subset _ (subtrees_subset inside)

mutual

theorem find?_eq : ∀ tree : Tree α, tree.find? test = tree.subtrees.find? (test ·.label)
  | .node label children => by
      rw [find?, subtrees, List.find?_cons]
      split
      next passed => simp [Tree.label, passed]
      next rejected => simp [Tree.label, rejected, findIn?_eq children]

theorem findIn?_eq : ∀ trees : List (Tree α),
    findIn? test trees = (subtreesAll trees).find? (test ·.label)
  | [] => rfl
  | tree :: rest => by
      rw [findIn?, subtreesAll, List.find?_append, find?_eq tree, findIn?_eq rest]

end

/-- The first subtree that passes a test is one of the subtrees and passes the test. -/
theorem find?_eq_some {found : Tree α} (searched : tree.find? test = some found) :
    found ∈ tree.subtrees ∧ test found.label = true := by
  rw [find?_eq] at searched
  have passed := List.find?_some searched
  exact ⟨List.mem_of_find?_eq_some searched, passed⟩

theorem isSome_find? {label : α} (passed : test label = true) (member : label ∈ tree.preorder) :
    (tree.find? test).isSome = true := by
  obtain ⟨part, inside, rfl⟩ := exists_mem_subtrees member
  rw [find?_eq, List.find?_isSome]
  exact ⟨part, inside, passed⟩

/-! ## Relations along edges -/

mutual

/-- Every label is related to the label above it. -/
def Edges (related : α → α → Prop) : Tree α → Prop
  | .node label children => EdgesUnder related label children

/-- The labels of some trees are related to a label, and so are those inside the trees to the
labels above them. -/
def EdgesUnder (related : α → α → Prop) (parent : α) : List (Tree α) → Prop
  | [] => True
  | tree :: rest => related tree.label parent ∧ Edges related tree ∧ EdgesUnder related parent rest

end

theorem edgesUnder_iff {related : α → α → Prop} {parent : α} {trees : List (Tree α)} :
    EdgesUnder related parent trees ↔
      ∀ tree ∈ trees, related tree.label parent ∧ Edges related tree := by
  induction trees with
  | nil => simp [EdgesUnder]
  | cons tree rest ih => simp [EdgesUnder, ih, and_assoc]

end Tree

/-! ## Numbers -/

namespace Outline

open Tree

mutual

theorem free_number (above : List Node) : ∀ (next : Nat) (tree : Tree Label),
    (number above next tree).2 = next + tree.size
  | next, .node label children => by
      simp only [number, free_numberAll, size]
      omega

theorem free_numberAll (above : List Node) : ∀ (next : Nat) (trees : List (Tree Label)),
    (numberAll above next trees).2 = next + sizeAll trees
  | next, [] => rfl
  | next, tree :: rest => by
      simp only [numberAll, free_number, free_numberAll, sizeAll]
      omega

end

mutual

theorem size_number : ∀ (above : List Node) (next : Nat) (tree : Tree Label),
    (number above next tree).1.size = tree.size
  | above, next, .node label children => by
      simp only [number, size, sizeAll_numberAll]

theorem sizeAll_numberAll : ∀ (above : List Node) (next : Nat) (trees : List (Tree Label)),
    sizeAll (numberAll above next trees).1 = sizeAll trees
  | above, next, [] => rfl
  | above, next, tree :: rest => by
      simp only [numberAll, sizeAll, size_number, sizeAll_numberAll]

end

mutual

/-- The sites of a numbered tree have consecutive numbers in pre-order. -/
theorem ids_number : ∀ (above : List Node) (next : Nat) (tree : Tree Label),
    (number above next tree).1.preorder.map (·.node.id) = List.range' next tree.size
  | above, next, .node label children => by
      simp only [number, preorder, List.map_cons, ids_numberAll, size]
      rfl

theorem ids_numberAll : ∀ (above : List Node) (next : Nat) (trees : List (Tree Label)),
    (preorderAll (numberAll above next trees).1).map (·.node.id) = List.range' next (sizeAll trees)
  | above, next, [] => rfl
  | above, next, tree :: rest => by
      simp only [numberAll, preorderAll, List.map_append, ids_number, ids_numberAll, free_number,
        sizeAll, List.range'_append_1]

end

/-- The sites of an outline in pre-order stand at their numbers. -/
theorem ids_ofProgram (program : Program) :
    (ofProgram program).sites.map (·.node.id) = List.range (shape program).size := by
  rw [List.range_eq_range']
  exact ids_number [] 0 (shape program)

theorem getElem?_sites {program : Program} {site : Site}
    (member : site ∈ (ofProgram program).sites) :
    (ofProgram program).sites[site.node.id]? = some site := by
  obtain ⟨position, found⟩ := List.mem_iff_getElem?.mp member
  have numbered := congrArg (·[position]?) (ids_ofProgram program)
  simp only [List.getElem?_map, found, Option.map_some] at numbered
  rw [List.getElem?_range (by
    have bound := (List.getElem?_eq_some_iff.mp found).1
    have same := congrArg List.length (ids_ofProgram program)
    simp only [List.length_map, List.length_range] at same
    omega)] at numbered
  rw [Option.some.inj numbered]
  exact found

/-! ## Paths -/

mutual

/-- Every site of an outline under the given nodes knows the nodes above it. -/
def Rooted (above : List Node) : Outline → Prop
  | .node site children => site.above = above ∧ RootedAll (site.node :: above) children

/-- Every site of some outlines under the given nodes knows the nodes above it. -/
def RootedAll (above : List Node) : List Outline → Prop
  | [] => True
  | tree :: rest => Rooted above tree ∧ RootedAll above rest

end

theorem rootedAll_iff {above : List Node} {trees : List Outline} :
    RootedAll above trees ↔ ∀ tree ∈ trees, Rooted above tree := by
  induction trees with
  | nil => simp [RootedAll]
  | cons tree rest ih => simp [RootedAll, ih]

mutual

theorem rooted_number : ∀ (above : List Node) (next : Nat) (tree : Tree Label),
    Rooted above (number above next tree).1
  | _, _, .node _ children => ⟨rfl, rooted_numberAll _ _ children⟩

theorem rooted_numberAll : ∀ (above : List Node) (next : Nat) (trees : List (Tree Label)),
    RootedAll above (numberAll above next trees).1
  | _, _, [] => trivial
  | above, next, tree :: rest => ⟨rooted_number above next tree, rooted_numberAll above _ rest⟩

end

theorem rooted_ofProgram (program : Program) : Rooted [] (ofProgram program) :=
  rooted_number [] 0 (shape program)

theorem Rooted.above_eq {above : List Node} {tree : Outline} (rooted : Rooted above tree) :
    tree.label.above = above := by
  obtain ⟨site, children⟩ := tree
  exact rooted.1

theorem Rooted.child {above : List Node} {tree child : Outline} (rooted : Rooted above tree)
    (among : child ∈ tree.children) : Rooted tree.label.path child := by
  obtain ⟨site, children⟩ := tree
  obtain ⟨rfl, below⟩ := rooted
  exact rootedAll_iff.mp below child among

theorem Rooted.subtree {above : List Node} {tree : Outline} (rooted : Rooted above tree) :
    ∀ {part : Outline}, part ∈ tree.subtrees → Rooted part.label.above part := by
  apply forall_subtrees
  · exact rooted.above_eq.symm ▸ rooted
  · intro upper _ known child among
    have below := known.child among
    exact below.above_eq.symm ▸ below

/-- The path of a site in a tree ends with the path of the root of the tree. -/
theorem Rooted.path_suffix {above : List Node} {site : Site} {tree : Outline}
    (rooted : Rooted above tree) (member : site ∈ tree.preorder) :
    tree.label.path <:+ site.path := by
  obtain ⟨part, inside, rfl⟩ := exists_mem_subtrees member
  clear member
  revert part
  apply forall_subtrees
  · exact List.suffix_refl _
  · intro upper inside known child among
    refine known.trans ?_
    rw [← ((rooted.subtree inside).child among).above_eq]
    exact List.suffix_cons _ _

/-- Every node on the path of a site, down to the root of the tree, is a site of the tree. -/
theorem Rooted.mem_of_suffix {above : List Node} {site : Site} {tree : Outline}
    (rooted : Rooted above tree) (member : site ∈ tree.preorder) {upper : Node} {rest : List Node}
    (suffix : upper :: rest <:+ site.path) (long : above.length ≤ rest.length) :
    ⟨upper, rest⟩ ∈ tree.preorder := by
  obtain ⟨part, inside, rfl⟩ := exists_mem_subtrees member
  clear member
  revert part
  have here {part : Outline} (inside : part ∈ tree.subtrees) (same : upper :: rest = part.label.path) :
      ⟨upper, rest⟩ ∈ tree.preorder := by
    obtain ⟨rfl, rfl⟩ := List.cons.inj same
    exact preorder_subset inside (label_mem_preorder part)
  apply forall_subtrees
  · intro suffix
    rcases List.suffix_cons_iff.mp suffix with same | further
    · exact here (self_mem_subtrees tree) same
    · have short := further.length_le
      rw [rooted.above_eq, List.length_cons] at short
      omega
  · intro upper inside known child among suffix
    rcases List.suffix_cons_iff.mp suffix with same | further
    · exact here (child_mem_subtrees inside among) same
    · rw [((rooted.subtree inside).child among).above_eq] at further
      exact known further

/-- A node and the node above it, in a numbered tree whose labels are related along its edges. -/
def NodeUnder (related : Label → Label → Prop) (child parent : Node) : Prop :=
  related child.toLabel parent.toLabel ∧ parent.id < child.id

mutual

/-- What holds along the edges of a shape holds along the paths of its numbered sites. -/
theorem chain_number {related : Label → Label → Prop} {above : List Node} {next : Nat} :
    ∀ {tree : Tree Label}, Edges related tree →
    List.IsChain (NodeUnder related) ({ tree.label with id := next } :: above) →
    ∀ site ∈ (number above next tree).1.preorder, List.IsChain (NodeUnder related) site.path
  | .node label children, edges, chained, site, member => by
      rcases List.mem_cons.mp member with rfl | below
      · exact chained
      · have under : EdgesUnder related ({ label with id := next } : Node).toLabel children := edges
        exact chain_numberAll under chained (Nat.lt_succ_self next) site below

theorem chain_numberAll {related : Label → Label → Prop} {parent : Node} {above : List Node}
    {next : Nat} : ∀ {trees : List (Tree Label)}, EdgesUnder related parent.toLabel trees →
    List.IsChain (NodeUnder related) (parent :: above) → parent.id < next →
    ∀ site ∈ preorderAll (numberAll (parent :: above) next trees).1,
      List.IsChain (NodeUnder related) site.path
  | [], edges, chained, before, site, member => by simp [numberAll, preorderAll] at member
  | tree :: rest, edges, chained, before, site, member => by
      rcases List.mem_append.mp member with here | later
      · exact chain_number edges.2.1 (.cons_cons ⟨edges.1, before⟩ chained) site here
      · refine chain_numberAll edges.2.2 chained ?_ site later
        rw [free_number]
        omega

end

theorem chain_ofProgram {related : Label → Label → Prop} {program : Program}
    (edges : Edges related (shape program)) {site : Site}
    (member : site ∈ (ofProgram program).sites) :
    List.IsChain (NodeUnder related) site.path :=
  chain_number edges (.singleton _) site member

theorem label_mem_sites {outline part : Outline} (inside : part ∈ outline.subtrees) :
    part.label ∈ outline.sites :=
  preorder_subset inside (label_mem_preorder part)

theorem exists_subtree {outline : Outline} {site : Site} (member : site ∈ outline.sites) :
    ∃ part ∈ outline.subtrees, part.label = site :=
  exists_mem_subtrees member

end Outline

end LoopCapture
