import LoopCapture.Outline.Basic

/-!
# Shapes and their numbered outlines

Numbering keeps the labels of a shape, and gives numbers to the trees of a list one after the other.
-/

set_option autoImplicit false

namespace LoopCapture.Outline

/-! ## Labels of shapes -/

theorem slot_number (above : List Node) (free : Nat) (tree : Tree Label) :
    (number above free tree).1.label.node.slot = tree.label.slot := by
  obtain ⟨label, children⟩ := tree
  rfl

theorem form_number (above : List Node) (free : Nat) (tree : Tree Label) :
    (number above free tree).1.label.node.form = tree.label.form := by
  obtain ⟨label, children⟩ := tree
  rfl

theorem slot_place (slot : Slot) (target : Place) : (place slot target).label.slot = slot := by
  cases target <;> simp [place, ident, leaf, Tree.label]

theorem slot_expr (slot : Slot) (value : Expr) : (expr slot value).label.slot = slot := by
  cases value with
  | place target => exact slot_place slot target
  | _ => simp [expr, leaf, Tree.label]

theorem slot_block (slot : Slot) (body : Block) : (block slot body).label.slot = slot := by
  cases body
  simp [block, Tree.label]

theorem slot_declaration (slot : Slot) (item : Declaration) :
    (declaration slot item).label.slot = slot := by
  cases item
  simp [declaration, Tree.label]

theorem slot_stmt (slot : Slot) (body : Stmt) : (stmt slot body).label.slot = slot := by
  cases body with
  | declaration item => exact slot_declaration slot item
  | block inner => exact slot_block slot inner
  | _ => simp [stmt, leaf, Tree.label]

theorem slot_exprOption {value : Option Expr} {tree : Tree Label}
    (member : tree ∈ exprOption value) : tree.label.slot = .plain := by
  cases value with
  | none => simp [exprOption] at member
  | some inner =>
      obtain rfl := List.mem_singleton.mp member
      exact slot_expr .plain inner

theorem slot_forInit {init : Option ForInit} {tree : Tree Label} (member : tree ∈ forInit init) :
    tree.label.slot = .plain := by
  cases init with
  | none => simp [forInit] at member
  | some init =>
      cases init with
      | declaration item =>
          obtain rfl := List.mem_singleton.mp member
          exact slot_declaration .plain item
      | expr value =>
          obtain rfl := List.mem_singleton.mp member
          exact slot_expr .plain value

theorem slot_forTarget (target : ForTarget) : (forTarget target).label.slot = .plain := by
  cases target <;> rfl

/-! ## Lists of trees -/

theorem numberAll_append (above : List Node) (trees rest : List (Tree Label)) :
    ∀ free, (numberAll above free (trees ++ rest)).1 =
      (numberAll above free trees).1 ++
        (numberAll above (numberAll above free trees).2 rest).1 := by
  induction trees with
  | nil => intro free; rfl
  | cons tree trees ih =>
      intro free
      simp only [List.cons_append, numberAll, ih]

theorem exists_label_numberAll {above : List Node} {trees : List (Tree Label)} :
    ∀ {free : Nat}, ∀ part ∈ (numberAll above free trees).1,
      ∃ tree ∈ trees, part.label.node.toLabel = tree.label := by
  induction trees with
  | nil => intro free part member; cases member
  | cons tree trees ih =>
      intro free part member
      rcases List.mem_cons.mp member with rfl | later
      · refine ⟨tree, List.mem_cons_self, ?_⟩
        cases tree
        rfl
      · obtain ⟨other, among, same⟩ := ih part later
        exact ⟨other, List.mem_cons_of_mem _ among, same⟩

theorem loopBody?_number {before : List (Tree Label)} {body : Tree Label}
    (slot : body.label.slot = .loopBody) (header : ∀ tree ∈ before, tree.label.slot = .plain)
    (site : Site) (above : List Node) (free : Nat) (after : List (Tree Label)) :
    loopBody? (.node site (numberAll above free (before ++ body :: after)).1) =
      some (number above (numberAll above free before).2 body).1 := by
  have inHeader : ∀ tree ∈ (numberAll above free before).1,
      ¬ (tree.label.node.slot == .loopBody) = true := by
    intro tree inside
    obtain ⟨shape, among, same⟩ := exists_label_numberAll tree inside
    rw [show tree.label.node.slot = _ from congrArg Label.slot same, header shape among]
    decide
  rw [loopBody?, Tree.children, numberAll_append, List.find?_append,
    List.find?_eq_none.mpr inHeader, Option.none_or]
  simp only [numberAll]
  rw [List.find?_cons_of_pos]
  simp [slot_number, slot]

end LoopCapture.Outline
