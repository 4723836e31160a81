/-!
Labelled trees and walks over them.

A walk visits the nodes in pre-order and carries a state along. After each visit it goes on to the
children, leaves them out, or stops altogether. The trees that are still to be visited are kept on a
stack.
-/

set_option autoImplicit false

namespace LoopCapture

inductive Tree (α : Type) where
  | node (label : α) (children : List (Tree α))

/-- How a walk goes on after a visit. -/
inductive Visit where
  | descend
  | skip
  | stop
  deriving DecidableEq, Repr

namespace Tree

variable {α β σ : Type}

def label : Tree α → α
  | .node label _ => label

def children : Tree α → List (Tree α)
  | .node _ children => children

mutual

def preorder : Tree α → List α
  | .node label children => label :: preorderAll children

def preorderAll : List (Tree α) → List α
  | [] => []
  | tree :: rest => preorder tree ++ preorderAll rest

end

mutual

def find? (test : α → Bool) : Tree α → Option (Tree α)
  | .node label children => if test label then some (.node label children) else findIn? test children

def findIn? (test : α → Bool) : List (Tree α) → Option (Tree α)
  | [] => none
  | tree :: rest => (find? test tree).or (findIn? test rest)

end

mutual

def size : Tree α → Nat
  | .node _ children => sizeAll children + 1

def sizeAll : List (Tree α) → Nat
  | [] => 0
  | tree :: rest => size tree + sizeAll rest

end

theorem sizeAll_append (trees rest : List (Tree α)) :
    sizeAll (trees ++ rest) = sizeAll trees + sizeAll rest := by
  induction trees with
  | nil => simp [sizeAll]
  | cons tree trees ih =>
      simp only [List.cons_append, sizeAll, ih]
      omega

theorem reverse_of_back? {stack : Array (Tree α)} {tree : Tree α} (top : stack.back? = some tree) :
    stack.toList.reverse = tree :: stack.pop.toList.reverse := by
  obtain ⟨below, rfl⟩ := Array.back?_eq_some_iff.mp top
  simp

/-- Visits the trees on a stack, the last one first. The children of a visited node are put on the
stack in reverse order. -/
def traverseFrom (visit : Tree α → σ → Visit × σ) (stack : Array (Tree α)) (state : σ) : Bool × σ :=
  match _top : stack.back? with
  | none => (true, state)
  | some tree =>
    match visit tree state with
    | (.stop, state) => (false, state)
    | (.skip, state) => traverseFrom visit stack.pop state
    | (.descend, state) => traverseFrom visit (stack.pop ++ tree.children.reverse) state
termination_by sizeAll stack.toList.reverse
decreasing_by
  all_goals
    obtain ⟨label, children⟩ := tree
    simp only [reverse_of_back? ‹_›, Array.toList_appendList, Tree.children, List.reverse_append,
      List.reverse_reverse, sizeAll_append, sizeAll, size]
    omega

/-- Visits the labels of a tree. -/
def traverse (visit : α → σ → Visit × σ) (tree : Tree α) (state : σ) : Bool × σ :=
  traverseFrom (fun part => visit part.label) #[tree] state

end Tree

end LoopCapture
