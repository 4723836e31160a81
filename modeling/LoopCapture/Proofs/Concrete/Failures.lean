import LoopCapture.Proofs.Concrete.Shape
import LoopCapture.Proofs.Concrete.Terminals
import LoopCapture.Proofs.Outline.Sites

/-!
# Failures to build a program

A concrete tree that stands for no program is refused at one of its own nodes, or for want of a
value: the grammar accepts literals that have none, such as strings with a broken escape. Then there
is such a literal among the terminals of the tree.
-/

set_option autoImplicit false

namespace LoopCapture

open Tree

/-- Why a terminal has no value, if it is a literal without one. -/
def Terminal.fault? : Terminal → Option LiteralFault
  | .number text =>
    match Number.ofNumeral text.toList with
    | .ok _ => none
    | .error fault => some (.number fault)
  | .string text =>
    match StringLiteral.decode text.toList with
    | .ok _ => none
    | .error fault => some (.string fault)
  | _ => none

theorem Outline.loc_expr (slot : Slot) (value : Expr) :
    (Outline.expr slot value).label.loc = value.loc := by
  cases value with
  | place place => cases place <;> rfl
  | _ => rfl

namespace Build

open Concrete

/-- A failure is due to a literal of a word or to a node of some trees. -/
def DueTo (word : List Terminal) (trees : List (Tree Label)) : BuildError → Prop
  | .literal fault => ∃ terminal ∈ word, terminal.fault? = some fault
  | .parse error => ∃ label ∈ preorderAll trees, label.loc = error.loc

/-- A part of a program fails for no other reason. -/
def FailsIn {α : Type} (word : List Terminal) (trees : List (Tree Label)) (part : Build α) : Prop :=
  ∀ failure, part = .error failure → DueTo word trees failure

variable {word : List Terminal}

namespace FailsIn

variable {α β : Type} {trees inner : List (Tree Label)}
variable {part : Build α}

theorem ok {value : α} : FailsIn word trees (.ok value) := nofun

theorem bind {next : α → Build β} (first : FailsIn word trees part)
    (others : ∀ found, part = .ok found → FailsIn word trees (next found)) :
    FailsIn word trees (part >>= next) := by
  intro failure failed
  cases built : part with
  | error other =>
      rw [built] at failed
      obtain rfl : other = failure := Except.error.inj failed
      exact first other built
  | ok found =>
      rw [built] at failed
      exact others found built failure failed

/-- What fails at nodes of some trees fails at nodes of other trees with the same places. -/
theorem transfer (fails : FailsIn word inner part) (places : ∀ label ∈ preorderAll inner,
    ∃ other ∈ preorderAll trees, other.loc = label.loc) : FailsIn word trees part := by
  intro failure failed
  have due := fails failure failed
  cases failure with
  | literal fault => exact due
  | parse error =>
      obtain ⟨label, member, same⟩ := due
      obtain ⟨other, among, equal⟩ := places label member
      exact ⟨other, among, equal.trans same⟩

theorem mono (fails : FailsIn word inner part) (included : inner ⊆ trees) :
    FailsIn word trees part := by
  refine fails.transfer fun label member => ⟨label, ?_, rfl⟩
  obtain ⟨tree, inInner, inTree⟩ := mem_preorderAll.mp member
  exact mem_preorderAll.mpr ⟨tree, included inInner, inTree⟩

/-- What fails below a node fails in the trees among which the node is. -/
theorem below {tree : Tree Label} (fails : FailsIn word tree.children part) (member : tree ∈ trees) :
    FailsIn word trees part := by
  refine fails.transfer fun label inChildren => ⟨label, ?_, rfl⟩
  exact mem_preorderAll.mpr ⟨tree, member, mem_preorder.mpr (.inr (mem_preorderAll.mp inChildren))⟩

theorem node {label : Label} {children : List (Tree Label)} (fails : FailsIn word children part)
    (member : .node label children ∈ trees) : FailsIn word trees part :=
  have inner : FailsIn word (Tree.node label children).children part := fails
  inner.below member

theorem here {error : ParseError} {tree : Tree Label} (member : tree ∈ trees)
    (same : tree.label.loc = error.loc) : FailsIn word trees (refuse error : Build α) := by
  intro failure failed
  obtain rfl : .parse error = failure := Except.error.inj failed
  exact ⟨tree.label, mem_preorderAll.mpr ⟨tree, member, label_mem_preorder tree⟩, same⟩

theorem commaItems {tree : Tree Label} (fails : FailsIn word tree.children part) :
    FailsIn word (Outline.commaItems tree) part := by
  unfold Outline.commaItems
  split
  · exact fails
  · exact fails.below List.mem_cons_self

theorem inSlot (fails : FailsIn word trees part) (slot : Slot) :
    FailsIn word (trees.map (Outline.inSlot slot)) part := by
  refine fails.transfer fun label member => ?_
  obtain ⟨⟨root, children⟩, inTrees, inTree⟩ := mem_preorderAll.mp member
  have moved : Outline.inSlot slot (.node root children) ∈ trees.map (Outline.inSlot slot) :=
    List.mem_map_of_mem inTrees
  obtain rfl | inChildren := List.mem_cons.mp inTree
  · exact ⟨_, mem_preorderAll.mpr ⟨_, moved, label_mem_preorder _⟩, rfl⟩
  · exact ⟨label, mem_preorderAll.mpr ⟨_, moved, List.mem_cons_of_mem _ inChildren⟩, rfl⟩

end FailsIn

open FailsIn

theorem fails_number {text : String} (member : .number text ∈ word) (trees : List (Tree Label)) :
    FailsIn word trees (number text) := by
  intro failure failed
  unfold number at failed
  split at failed
  · cases failed
  · rename_i lacking
    cases failed
    exact ⟨_, member, by simp [Terminal.fault?, lacking]⟩

theorem fails_string {text : String} (member : .string text ∈ word) (trees : List (Tree Label)) :
    FailsIn word trees (string text) := by
  intro failure failed
  unfold string at failed
  split at failed
  · cases failed
  · rename_i lacking
    cases failed
    exact ⟨_, member, by simp [Terminal.fault?, lacking]⟩

theorem fails_distinct (seen : List String) (names : List Ident) :
    FailsIn word (Outline.params names) (distinct seen names) := by
  induction names generalizing seen with
  | nil => exact ok
  | cons x rest ih =>
      unfold distinct
      split
      · exact here List.mem_cons_self rfl
      · exact (ih (x.name :: seen)).mono (List.subset_cons_self _ _)

theorem fails_params (names : List Ident) : FailsIn word (Outline.params names) (params names) :=
  (fails_distinct [] names).bind fun _ _ => ok

theorem fails_target (slot : Slot) (value : Expr) :
    FailsIn word [Outline.expr slot value] (target value) := by
  cases value with
  | place place => exact ok
  | _ => exact here List.mem_cons_self rfl

theorem fails_plainNames (items : List Expr) :
    FailsIn word (Outline.exprs items) (plainNames items) := by
  fun_induction plainNames items with
  | case1 => exact ok
  | case2 x rest ih =>
      exact (ih.mono (List.subset_cons_self _ _)).bind fun _ _ => ok
  | case3 other rest =>
      exact here List.mem_cons_self (Outline.loc_expr .plain other)

theorem fails_arrowParams (value : Expr) :
    FailsIn word ((Outline.commaItems (Outline.expr .plain value)).map (Outline.inSlot .parameter))
      (arrowParams value) := by
  rw [commaItems_expr, arrowParams_eq]
  exact (fails_plainNames (sequenceItems value)).inSlot .parameter

theorem fails_initialized {kind : DeclKind} {loc : Loc} {name : String} {init : Option Expr}
    {trees : List (Tree Label)} {tree : Tree Label} (member : tree ∈ trees)
    (same : tree.label.loc = loc) : FailsIn word trees (initialized kind loc name init) := by
  unfold initialized
  split
  · exact here member same
  · exact ok

theorem subset_of_init {init : Option Concrete.Expr} (included : initTerminals init ⊆ word) :
    exprOptionTerminals init ⊆ word := by
  cases init with
  | none => exact included
  | some value => exact (List.cons_subset.mp included).2

theorem subset_of_test {test : Option Concrete.Expr} (included : testTerminals test ⊆ word) :
    exprOptionTerminals test ⊆ word := by
  cases test with
  | none => exact List.nil_subset _
  | some value => exact (List.cons_subset.mp included).2

mutual

/-- An expression is refused strictly below its own node: the node may disappear in a row of
commas. -/
theorem fails_expr (slot : Slot) : ∀ tree : Concrete.Expr, tree.terminals ⊆ word →
    FailsIn word (tree.shape slot).children (expr tree)
  | .name x, _ => ok
  | .number loc text, included =>
      (fails_number (included List.mem_cons_self) _).bind fun _ _ => ok
  | .string loc text, included =>
      (fails_string (included List.mem_cons_self) _).bind fun _ _ => ok
  | .constant loc word, _ => ok
  | .array loc items, included => by
      simp only [Expr.terminals, List.cons_subset, List.append_subset] at included
      exact (fails_exprs items included.2.1).bind fun _ _ => ok
  | .function loc names body, included => by
      simp only [Expr.terminals, List.cons_subset, List.append_subset] at included
      refine ((fails_params names).mono (List.subset_append_left _ _)).bind fun found _ => ?_
      exact ((fails_block .functionBody body included.2.2.2.2).below (by simp)).bind fun _ _ => ok
  | .group loc inner, included => by
      simp only [Expr.terminals, List.cons_subset, List.append_subset] at included
      exact fails_expr slot inner included.2.1
  | .arrow loc head body, included => by
      simp only [Expr.terminals, List.cons_subset, List.append_subset] at included
      refine ((fails_arrowHead head included.1).mono (List.subset_append_left _ _)).bind
        fun names headBuilt => ?_
      have named : FailsIn word _ _ := fails_params names
      rw [shape_arrowHead headBuilt] at named
      refine (named.mono (List.subset_append_left _ _)).bind fun found _ => ?_
      exact ((fails_arrowBody body included.2.2).below (by simp)).bind fun _ _ => ok
  | .sequence loc left right, included => by
      simp only [Expr.terminals, List.cons_subset, List.append_subset] at included
      refine ((fails_expr .plain left included.1).commaItems.mono (List.subset_append_left _ _)).bind
        fun first _ => ?_
      exact ((fails_expr .plain right included.2.2).below (by simp)).bind fun _ _ => ok
  | .assign loc op left right, included => by
      simp only [Expr.terminals, List.cons_subset, List.append_subset] at included
      refine ((fails_expr .plain left included.1).below List.mem_cons_self).bind
        fun first leftBuilt => ?_
      have targeted : FailsIn word _ _ := fails_target .plain first
      rw [shape_expr .plain leftBuilt] at targeted
      refine (targeted.mono (by simp)).bind fun place _ => ?_
      exact ((fails_expr .plain right included.2.2).below (by simp)).bind fun _ _ => ok
  | .conditional loc test yes no, included => by
      simp only [Expr.terminals, List.cons_subset, List.append_subset] at included
      refine ((fails_expr .plain test included.1).below List.mem_cons_self).bind fun _ _ => ?_
      refine ((fails_expr .plain yes included.2.2.1).below (by simp)).bind fun _ _ => ?_
      exact ((fails_expr .plain no included.2.2.2.2).below (by simp)).bind fun _ _ => ok
  | .operation loc op left right, included => by
      simp only [Expr.terminals, List.cons_subset, List.append_subset] at included
      refine ((fails_expr .plain left included.1).below List.mem_cons_self).bind fun _ _ => ?_
      exact ((fails_expr .plain right included.2.2).below (by simp)).bind fun _ _ => ok
  | .unary loc op operand, included =>
      ((fails_expr .plain operand (List.cons_subset.mp included).2).below List.mem_cons_self).bind
        fun _ _ => ok
  | .update loc op before operand, included => by
      have inner : operand.terminals ⊆ word := by
        cases before with
        | true => exact (List.cons_subset.mp included).2
        | false => exact (List.append_subset.mp included).1
      refine ((fails_expr .plain operand inner).below List.mem_cons_self).bind fun value built => ?_
      have targeted : FailsIn word _ _ := fails_target .plain value
      rw [shape_expr .plain built] at targeted
      exact targeted.bind fun _ _ => ok
  | .call loc callee args, included => by
      simp only [Expr.terminals, List.cons_subset, List.append_subset] at included
      refine ((fails_exprs args included.2.2.1).mono (List.subset_cons_self _ _)).bind fun _ _ => ?_
      exact ((fails_expr .plain callee included.1).below List.mem_cons_self).bind fun _ _ => ok
  | .member loc object property, included =>
      ((fails_expr .plain object (List.append_subset.mp included).1).below List.mem_cons_self).bind
        fun _ _ => ok
  | .index loc object key, included => by
      simp only [Expr.terminals, List.cons_subset, List.append_subset] at included
      refine ((fails_expr .plain object included.1).below List.mem_cons_self).bind fun _ _ => ?_
      exact ((fails_expr .plain key included.2.2.1).below (by simp)).bind fun _ _ => ok

theorem fails_exprs : ∀ trees : List Concrete.Expr, exprTerminals trees ⊆ word →
    FailsIn word (exprShapes trees) (exprs trees)
  | [], _ => ok
  | [first], included => by
      have inner := (List.append_subset.mp included).1
      exact ((fails_expr .plain first inner).below List.mem_cons_self).bind fun _ _ => ok
  | first :: second :: rest, included => by
      have inner := List.append_subset.mp included
      refine ((fails_expr .plain first inner.1).below List.mem_cons_self).bind fun _ _ => ?_
      exact ((fails_exprs (second :: rest) (List.cons_subset.mp inner.2).2).mono
        (List.subset_cons_self _ _)).bind fun _ _ => ok

theorem fails_exprOption : ∀ tree : Option Concrete.Expr, exprOptionTerminals tree ⊆ word →
    FailsIn word (exprOptionShapes tree) (exprOption tree)
  | none, _ => ok
  | some tree, included =>
      ((fails_expr .plain tree included).below List.mem_cons_self).bind fun _ _ => ok

theorem fails_arrowHead : ∀ head : ArrowHead, head.terminals ⊆ word →
    FailsIn word head.shapes (arrowHead head)
  | .empty, _ => ok
  | .name x, _ => ok
  | .group inner, included => by
      simp only [ArrowHead.terminals, List.cons_subset, List.append_subset] at included
      refine ((fails_expr .plain inner included.2.1).commaItems.inSlot .parameter).bind
        fun value built => ?_
      have named : FailsIn word _ _ := fails_arrowParams value
      rw [shape_expr .plain built] at named
      exact named

theorem fails_arrowBody : ∀ tree : Concrete.ArrowBody, tree.terminals ⊆ word →
    FailsIn word tree.shape.children (arrowBody tree)
  | .block tree, included => (fails_block .functionBody tree included).bind fun _ _ => ok
  | .expr tree, included => (fails_expr .plain tree included).bind fun _ _ => ok

theorem fails_block (slot : Slot) : ∀ tree : Concrete.Block, tree.terminals ⊆ word →
    FailsIn word (tree.shape slot).children (block tree)
  | .mk _ trees, included => by
      simp only [Block.terminals, List.cons_subset, List.append_subset] at included
      exact (fails_stmts trees included.2.1).bind fun _ _ => ok

theorem fails_blockOption : ∀ tree : Option Concrete.Block, finalizerTerminals tree ⊆ word →
    FailsIn word (blockOptionShapes tree) (blockOption tree)
  | none, _ => ok
  | some tree, included =>
      ((fails_block .plain tree (List.cons_subset.mp included).2).below List.mem_cons_self).bind
        fun _ _ => ok

theorem fails_declarators (kind : DeclKind) : ∀ trees : List Concrete.Declarator,
    declaratorTerminals trees ⊆ word → FailsIn word (declaratorShapes trees) (declarators kind trees)
  | [], _ => ok
  | .mk loc x init :: rest, included => by
      have inner := List.append_subset.mp (List.cons_subset.mp included).2
      have others : declaratorTerminals rest ⊆ word := by
        cases rest with
        | nil => exact List.nil_subset _
        | cons second rest => exact (List.cons_subset.mp inner.2).2
      have initial : FailsIn word (Outline.ident .declared x :: exprOptionShapes init)
          (exprOption init) :=
        (fails_exprOption init (subset_of_init inner.1)).mono (List.subset_cons_self _ _)
      refine (initial.node List.mem_cons_self).bind fun _ _ => ?_
      refine FailsIn.bind (fails_initialized List.mem_cons_self rfl) fun _ _ => ?_
      exact ((fails_declarators kind rest others).mono (List.subset_cons_self _ _)).bind fun _ _ => ok

theorem fails_declaration (loc : Loc) (slot : Slot) : ∀ tree : Concrete.Declaration,
    tree.terminals ⊆ word → FailsIn word (tree.shape loc slot).children (declaration loc tree)
  | .mk _ kind items, included =>
      (fails_declarators kind items (List.cons_subset.mp included).2).bind fun _ _ => ok

theorem fails_forInit : ∀ tree : Option Concrete.ForInit, forInitTerminals tree ⊆ word →
    FailsIn word (forInitShapes tree) (forInit tree)
  | none, _ => ok
  | some (.declaration tree), included =>
      ((fails_declaration tree.loc .plain tree included).below List.mem_cons_self).bind fun _ _ => ok
  | some (.expr tree), included =>
      ((fails_expr .plain tree included).below List.mem_cons_self).bind fun _ _ => ok

theorem fails_handler : ∀ tree : Option Concrete.CatchClause, handlerTerminals tree ⊆ word →
    FailsIn word (handlerShapes tree) (handler tree)
  | none, _ => ok
  | some (.mk loc param tree), included => by
      simp only [handlerTerminals, List.cons_subset] at included
      have inner : FailsIn word [Outline.ident .caught param, tree.shape .plain] (block tree) :=
        (fails_block .plain tree included.2.2.2.2).below (by simp)
      exact (inner.node List.mem_cons_self).bind fun _ _ => ok

theorem fails_cases : ∀ trees : List Concrete.Case, caseTerminals trees ⊆ word →
    FailsIn word (caseShapes trees) (cases trees)
  | [], _ => ok
  | .mk loc test tree :: rest, included => by
      simp only [caseTerminals, List.cons_subset, List.append_subset] at included
      have tested : FailsIn word (exprOptionShapes test ++ stmtShapes tree) (exprOption test) :=
        (fails_exprOption test (subset_of_test included.1)).mono (List.subset_append_left _ _)
      have body : FailsIn word (exprOptionShapes test ++ stmtShapes tree) (stmts tree) :=
        (fails_stmts tree included.2.2.1).mono (List.subset_append_right _ _)
      refine (tested.node List.mem_cons_self).bind fun _ _ => ?_
      refine (body.node List.mem_cons_self).bind fun _ _ => ?_
      exact ((fails_cases rest included.2.2.2).mono (List.subset_cons_self _ _)).bind fun _ _ => ok

theorem fails_stmt (slot : Slot) : ∀ tree : Concrete.Stmt, tree.terminals ⊆ word →
    FailsIn word (tree.shape slot).children (stmt tree)
  | .declaration loc tree, included =>
      (fails_declaration loc slot tree (List.append_subset.mp included).1).bind fun _ _ => ok
  | .function loc name names body, included => by
      simp only [Stmt.terminals, List.cons_subset, List.append_subset] at included
      simp only [Stmt.shape, children]
      refine ((fails_params names).mono (by simp)).bind fun found _ => ?_
      exact ((fails_block .functionBody body included.2.2.2.2.2).below (by simp)).bind fun _ _ => ok
  | .block tree, included => (fails_block slot tree included).bind fun _ _ => ok
  | .ifElse loc test yes no, included => by
      simp only [Stmt.terminals, List.cons_subset, List.append_subset] at included
      refine ((fails_expr .plain test included.2.2.1).below List.mem_cons_self).bind fun _ _ => ?_
      refine ((fails_stmt .plain yes included.2.2.2.2.1).below (by simp)).bind fun _ _ => ?_
      exact ((fails_stmtOption no included.2.2.2.2.2).mono (by simp)).bind fun _ _ => ok
  | .forLoop loc init test update body, included => by
      simp only [Stmt.terminals, List.cons_subset, List.append_subset] at included
      obtain ⟨-, -, inInit, -, inTest, -, inUpdate, -, inBody⟩ := included
      simp only [Stmt.shape, children]
      refine ((fails_forInit init inInit).mono (by simp)).bind fun _ _ => ?_
      refine ((fails_exprOption test inTest).mono (by simp)).bind fun _ _ => ?_
      have among : exprOptionShapes update ⊆
          forInitShapes init ++ exprOptionShapes test ++ exprOptionShapes update ++
            [body.shape .loopBody] :=
        List.subset_append_of_subset_left _ (List.subset_append_right _ _)
      refine ((fails_exprOption update inUpdate).mono among).bind fun _ _ => ?_
      exact ((fails_stmt .loopBody body inBody).below (by simp)).bind fun _ _ => ok
  | .forEach loc kind target subject body, included => by
      simp only [Stmt.terminals, List.cons_subset, List.append_subset] at included
      obtain ⟨-, -, -, -, inSubject, -, inBody⟩ := included
      simp only [Stmt.shape, children]
      refine ((fails_expr .plain subject inSubject).below (by simp)).bind fun _ _ => ?_
      exact ((fails_stmt .loopBody body inBody).below (by simp)).bind fun _ _ => ok
  | .whileLoop loc test body, included => by
      simp only [Stmt.terminals, List.cons_subset, List.append_subset] at included
      refine ((fails_expr .plain test included.2.2.1).below List.mem_cons_self).bind fun _ _ => ?_
      exact ((fails_stmt .loopBody body included.2.2.2.2).below (by simp)).bind fun _ _ => ok
  | .doWhile loc body test, included => by
      simp only [Stmt.terminals, List.cons_subset, List.append_subset] at included
      refine ((fails_stmt .loopBody body included.2.1).below List.mem_cons_self).bind fun _ _ => ?_
      exact ((fails_expr .plain test included.2.2.2.2.1).below (by simp)).bind fun _ _ => ok
  | .returns loc value, included => by
      simp only [Stmt.terminals, List.cons_subset, List.append_subset] at included
      exact (fails_exprOption value included.2.1).bind fun _ _ => ok
  | .breaks loc label, _ => ok
  | .continues loc label, _ => ok
  | .throws loc value, included => by
      simp only [Stmt.terminals, List.cons_subset, List.append_subset] at included
      exact ((fails_expr .plain value included.2.1).below List.mem_cons_self).bind fun _ _ => ok
  | .tryCatch loc body clause finalizer, included => by
      simp only [Stmt.terminals, List.cons_subset, List.append_subset] at included
      simp only [Stmt.shape, children]
      refine ((fails_handler clause included.2.2.1).mono (by simp)).bind fun _ _ => ?_
      refine ((fails_blockOption finalizer included.2.2.2).mono (by simp)).bind fun _ _ => ?_
      exact ((fails_block .plain body included.2.1).below List.mem_cons_self).bind fun _ _ => ok
  | .switch loc subject items, included => by
      simp only [Stmt.terminals, List.cons_subset, List.append_subset] at included
      refine ((fails_expr .plain subject included.2.2.1).below List.mem_cons_self).bind fun _ _ => ?_
      exact ((fails_cases items included.2.2.2.2.2.1).mono (List.subset_cons_self _ _)).bind
        fun _ _ => ok
  | .labeled loc label body, included => by
      simp only [Stmt.terminals, List.cons_subset] at included
      simp only [Stmt.shape, children]
      exact ((fails_stmt .plain body included.2.2).below (by simp)).bind fun _ _ => ok
  | .expr loc value, included =>
      ((fails_expr .plain value (List.append_subset.mp included).1).below List.mem_cons_self).bind
        fun _ _ => ok
  | .empty loc, _ => ok

theorem fails_stmtOption : ∀ tree : Option Concrete.Stmt, elseTerminals tree ⊆ word →
    FailsIn word (stmtOptionShapes tree) (stmtOption tree)
  | none, _ => ok
  | some tree, included =>
      ((fails_stmt .plain tree (List.cons_subset.mp included).2).below List.mem_cons_self).bind
        fun _ _ => ok

theorem fails_stmts : ∀ trees : List Concrete.Stmt, stmtTerminals trees ⊆ word →
    FailsIn word (stmtShapes trees) (stmts trees)
  | [], _ => ok
  | first :: rest, included => by
      have inner := List.append_subset.mp included
      refine ((fails_stmt .plain first inner.1).below List.mem_cons_self).bind fun _ _ => ?_
      exact ((fails_stmts rest inner.2).mono (List.subset_cons_self _ _)).bind fun _ _ => ok

end

end Build

end LoopCapture
