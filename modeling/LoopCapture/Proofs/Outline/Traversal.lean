import LoopCapture.Proofs.Outline.Sites

/-!
# Walks over trees

`traverse` keeps the nodes of all levels that are still to be visited on one stack. Whatever the
visitor does, it is called like in the recursion `walk`: on the same nodes, in the same order and
with the same states. Nodes are told apart by their places, the positions of the children on the
way down to them; in lexicographic order the places are in pre-order.
-/

set_option autoImplicit false

namespace LoopCapture.Tree

variable {α σ : Type}

mutual

/-- Visits a tree by recursion. The result is false when a visit stopped the walk. -/
def walk (visit : Tree α → σ → Visit × σ) : Tree α → σ → Bool × σ
  | .node label children, state =>
    match visit (.node label children) state with
    | (.stop, state) => (false, state)
    | (.skip, state) => (true, state)
    | (.descend, state) => walkAll visit children state

def walkAll (visit : Tree α → σ → Visit × σ) : List (Tree α) → σ → Bool × σ
  | [], state => (true, state)
  | tree :: rest, state =>
    match walk visit tree state with
    | (true, state) => walkAll visit rest state
    | (false, state) => (false, state)

end

/-! ## The stack -/

theorem walkAll_append (visit : Tree α → σ → Visit × σ) (first second : List (Tree α)) (state : σ) :
    walkAll visit (first ++ second) state =
      if (walkAll visit first state).1 then walkAll visit second (walkAll visit first state).2
      else walkAll visit first state := by
  induction first generalizing state with
  | nil => simp [walkAll]
  | cons tree rest ih =>
      rw [List.cons_append, walkAll, walkAll]
      rcases walk visit tree state with ⟨_ | _, after⟩
      · simp
      · simp only [ih]

/-- The stack is walked from its end on. -/
theorem traverseFrom_eq_walkAll (visit : Tree α → σ → Visit × σ) (stack : Array (Tree α))
    (state : σ) : traverseFrom visit stack state = walkAll visit stack.toList.reverse state := by
  fun_induction traverseFrom visit stack state with
  | case1 stack state empty =>
      obtain rfl := Array.back?_eq_none_iff.mp empty
      rfl
  | case2 stack state tree top after visited =>
      obtain ⟨label, children⟩ := tree
      simp only [reverse_of_back? top, walkAll, walk, visited]
  | case3 stack state tree top after visited ih =>
      obtain ⟨label, children⟩ := tree
      simp only [reverse_of_back? top, walkAll, walk, visited, ih]
  | case4 stack state tree top after visited ih =>
      obtain ⟨label, children⟩ := tree
      rw [ih, reverse_of_back? top]
      simp only [Array.toList_appendList, Tree.children, List.reverse_append, List.reverse_reverse,
        walkAll_append, walkAll, walk, visited]
      rcases walkAll visit children after with ⟨_ | _, final⟩ <;> rfl

theorem walkAll_singleton (visit : Tree α → σ → Visit × σ) (tree : Tree α) (state : σ) :
    walkAll visit [tree] state = walk visit tree state := by
  rw [walkAll]
  rcases walk visit tree state with ⟨_ | _, after⟩ <;> rfl

theorem traverseFrom_singleton (visit : Tree α → σ → Visit × σ) (tree : Tree α) (state : σ) :
    traverseFrom visit #[tree] state = walk visit tree state := by
  rw [traverseFrom_eq_walkAll]
  exact walkAll_singleton visit tree state

/-! ## Calls of the visitor -/

/-- A visitor that notes the node and the state of each call of another one. -/
def noting (visit : Tree α → σ → Visit × σ) (tree : Tree α) (noted : σ × List (Tree α × σ)) :
    Visit × σ × List (Tree α × σ) :=
  ((visit tree noted.1).1, (visit tree noted.1).2, noted.2 ++ [(tree, noted.1)])

/-- What is noted in a walk: the walk itself is not disturbed, and if every call leads on to the
children, then all nodes have been visited. -/
def Noted (visit : Tree α → σ → Visit × σ) (parts : List (Tree α)) (log : List (Tree α × σ))
    (plain : Bool × σ) (noted : Bool × σ × List (Tree α × σ)) : Prop :=
  ∃ calls, noted = (plain.1, plain.2, log ++ calls) ∧
    ((∀ call ∈ calls, (visit call.1 call.2).1 = .descend) →
      plain.1 = true ∧ calls.map Prod.fst = parts)

mutual

theorem noted_walk (visit : Tree α → σ → Visit × σ) : ∀ (tree : Tree α) (state : σ)
    (log : List (Tree α × σ)),
    Noted visit tree.subtrees log (walk visit tree state) (walk (noting visit) tree (state, log))
  | .node label children, state, log => by
      simp only [walk, noting, subtrees]
      rcases answer : visit (.node label children) state with ⟨_ | _ | _, after⟩
      · obtain ⟨calls, noted, complete⟩ :=
          noted_walkAll visit children after (log ++ [(.node label children, state)])
        refine ⟨(.node label children, state) :: calls, by simp [noted], fun descends => ?_⟩
        obtain ⟨done, visited⟩ := complete (List.forall_mem_of_forall_mem_cons descends)
        exact ⟨done, by simp [visited]⟩
      all_goals exact ⟨[(.node label children, state)], rfl, by simp [answer]⟩

theorem noted_walkAll (visit : Tree α → σ → Visit × σ) : ∀ (trees : List (Tree α)) (state : σ)
    (log : List (Tree α × σ)),
    Noted visit (subtreesAll trees) log (walkAll visit trees state)
      (walkAll (noting visit) trees (state, log))
  | [], state, log => ⟨[], by simp [walkAll], by simp [walkAll, subtreesAll]⟩
  | tree :: rest, state, log => by
      obtain ⟨calls, noted, complete⟩ := noted_walk visit tree state log
      simp only [walkAll, subtreesAll, noted]
      rcases walked : walk visit tree state with ⟨_ | _, after⟩ <;> rw [walked] at complete
      · refine ⟨calls, rfl, fun descends => ?_⟩
        cases (complete descends).1
      · obtain ⟨later, notedLater, completeLater⟩ := noted_walkAll visit rest after (log ++ calls)
        refine ⟨calls ++ later, by simp [notedLater], fun descends => ?_⟩
        obtain ⟨here, there⟩ := List.forall_mem_append.mp descends
        obtain ⟨done, visited⟩ := completeLater there
        exact ⟨done, by simp [visited, (complete here).2]⟩

end

/-! ## Places -/

/-- The part of a tree at a place. -/
def at? : Tree α → List Nat → Option (Tree α)
  | tree, [] => some tree
  | tree, position :: rest => tree.children[position]?.bind fun child => child.at? rest

mutual

def places : Tree α → List (List Nat)
  | .node _ children => [] :: placesFrom 0 children

/-- The places in the children of a node from a position on. -/
def placesFrom (position : Nat) : List (Tree α) → List (List Nat)
  | [] => []
  | tree :: rest => (places tree).map (position :: ·) ++ placesFrom (position + 1) rest

end

theorem mem_placesFrom {trees : List (Tree α)} {first : Nat} {place : List Nat} :
    place ∈ placesFrom first trees ↔ ∃ (offset : Nat) (tree : Tree α), trees[offset]? = some tree ∧
      ∃ rest ∈ tree.places, place = (first + offset) :: rest := by
  induction trees generalizing first with
  | nil => simp [placesFrom]
  | cons tree trees ih =>
      have shifted (offset : Nat) : first + 1 + offset = first + (offset + 1) := by omega
      simp only [placesFrom, List.mem_append, List.mem_map, ih, shifted]
      constructor
      · rintro (⟨rest, member, rfl⟩ | ⟨offset, part, found, inside⟩)
        · exact ⟨0, tree, rfl, rest, member, rfl⟩
        · exact ⟨offset + 1, part, found, inside⟩
      · rintro ⟨_ | offset, part, found, rest, member, rfl⟩
        · exact .inl ⟨rest, Option.some.inj found ▸ member, rfl⟩
        · exact .inr ⟨offset, part, found, rest, member, rfl⟩

/-- The places of a tree are those at which there is a part. -/
theorem mem_places {tree : Tree α} {place : List Nat} :
    place ∈ tree.places ↔ (tree.at? place).isSome = true := by
  induction place generalizing tree with
  | nil => obtain ⟨label, children⟩ := tree; simp [places, at?]
  | cons position rest ih =>
      obtain ⟨label, children⟩ := tree
      simp only [places, at?, Tree.children, List.mem_cons, reduceCtorEq, false_or, mem_placesFrom,
        Nat.zero_add, List.cons.injEq]
      cases found : children[position]? with
      | none => simp [found]
      | some child => simp [found, ih]

mutual

theorem places_ascend : ∀ tree : Tree α, tree.places.Pairwise (List.Lex (· < ·))
  | .node label children => by
      refine List.pairwise_cons.mpr ⟨fun place member => ?_, placesFrom_ascend children 0⟩
      obtain ⟨offset, tree, -, rest, -, rfl⟩ := mem_placesFrom.mp member
      exact .nil

theorem placesFrom_ascend : ∀ (trees : List (Tree α)) (first : Nat),
    (placesFrom first trees).Pairwise (List.Lex (· < ·))
  | [], first => .nil
  | tree :: rest, first => by
      refine List.pairwise_append.mpr ⟨?_, placesFrom_ascend rest (first + 1), ?_⟩
      · exact (places_ascend tree).map _ fun _ _ less => .cons less
      · intro one memberOne other memberOther
        obtain ⟨low, -, rfl⟩ := List.mem_map.mp memberOne
        obtain ⟨offset, tree, -, high, -, rfl⟩ := mem_placesFrom.mp memberOther
        exact .rel (by omega)

end

mutual

theorem map_at?_places : ∀ tree : Tree α, tree.places.map tree.at? = tree.subtrees.map some
  | .node label children => by
      simp only [places, subtrees, List.map_cons, at?]
      rw [map_at?_placesFrom children 0 (.node label children) rfl]

theorem map_at?_placesFrom : ∀ (trees : List (Tree α)) (first : Nat) (whole : Tree α),
    whole.children.drop first = trees →
    (placesFrom first trees).map whole.at? = (subtreesAll trees).map some
  | [], first, whole, rest => rfl
  | tree :: trees, first, whole, isRest => by
      have here : whole.children[first]? = some tree := by rw [← List.head?_drop, isRest]; rfl
      have later : whole.children.drop (first + 1) = trees := by rw [← List.tail_drop, isRest]; rfl
      have inside : whole.at? ∘ (first :: ·) = tree.at? := by funext place; simp [at?, here]
      simp only [placesFrom, subtreesAll, List.map_append, List.map_map, inside]
      rw [map_at?_places tree, map_at?_placesFrom trees (first + 1) whole later]

end

/-- A traversal by a stack is the recursive walk: it has the same result, and the visitor is called
on the same nodes with the same states. If no call skips children or stops, the calls are those on
the parts at all places of the tree, once each and in lexicographic order. -/
theorem traverseFrom_preorder (visit : Tree α → σ → Visit × σ) (tree : Tree α) (state : σ) :
    (∀ look : α → σ → Visit × σ,
      traverse look tree state = walk (fun part => look part.label) tree state) ∧
    traverseFrom visit #[tree] state = walk visit tree state ∧
    traverseFrom (noting visit) #[tree] (state, []) = walk (noting visit) tree (state, []) ∧
    ∃ calls : List (Tree α × σ),
      walk (noting visit) tree (state, []) =
        ((walk visit tree state).1, (walk visit tree state).2, calls) ∧
      ((∀ call ∈ calls, (visit call.1 call.2).1 = .descend) →
        (walk visit tree state).1 = true ∧
        ∃ places : List (List Nat), places.Pairwise (List.Lex (· < ·)) ∧
          (∀ place, place ∈ places ↔ (tree.at? place).isSome = true) ∧
          calls.map (fun call => some call.1) = places.map tree.at?) := by
  obtain ⟨calls, noted, complete⟩ := noted_walk visit tree state []
  refine ⟨fun _ => traverseFrom_singleton _ tree state, traverseFrom_singleton visit tree state,
    traverseFrom_singleton _ tree _, calls, noted, ?_⟩
  intro descends
  obtain ⟨done, visited⟩ := complete descends
  refine ⟨done, tree.places, places_ascend tree, fun _ => mem_places, ?_⟩
  rw [map_at?_places, ← visited, List.map_map]
  rfl

/-- A visitor that collects labels, on a tree with nodes left to visit at two levels. -/
theorem traverseFrom_preorder_siblings :
    ∃ calls : List (Tree Nat × List Nat),
      (∀ call ∈ calls, (Visit.descend, call.2 ++ [call.1.label]).1 = .descend) ∧
      traverseFrom (fun part seen => (.descend, seen ++ [part.label]))
        #[.node 0 [.node 1 [.node 2 [], .node 3 []], .node 4 []]] [] = (true, [0, 1, 2, 3, 4]) ∧
      ∃ places : List (List Nat), places.Pairwise (List.Lex (· < ·)) ∧
        (∀ place, place ∈ places ↔
          (at? (.node 0 [.node 1 [.node 2 [], .node 3 []], .node 4 []]) place).isSome = true) ∧
        calls.map (fun call => some call.1) =
          places.map (at? (.node 0 [.node 1 [.node 2 [], .node 3 []], .node 4 []])) := by
  obtain ⟨-, walked, -, calls, -, complete⟩ := traverseFrom_preorder
    (fun part seen => (.descend, seen ++ [part.label]))
    (.node 0 [.node 1 [.node 2 [], .node 3 []], .node 4 []]) ([] : List Nat)
  exact ⟨calls, fun _ _ => rfl, walked, (complete fun _ _ => rfl).2⟩

end LoopCapture.Tree
