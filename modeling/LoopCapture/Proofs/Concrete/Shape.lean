import LoopCapture.Outline.Basic
import LoopCapture.Program.Build

/-!
# The shape of the program that a concrete tree stands for

A program has the outline that its concrete tree has once parentheses are left out, the items of
nested commas are put in one row, and names in parentheses before an arrow are parameters.
-/

set_option autoImplicit false

namespace LoopCapture

namespace Outline

/-- The items of an expression with commas; any other expression is its only item. -/
def commaItems (tree : Tree Label) : List (Tree Label) :=
  if tree.label.form = .sequence then tree.children else [tree]

def inSlot (slot : Slot) : Tree Label → Tree Label
  | .node label children => .node { label with slot := slot } children

end Outline

namespace Concrete

open Outline (leaf ident params labelOption forTarget commaItems inSlot)

def Constant.form : Constant → Form
  | .this => .this
  | _ => .literal

def InfixOp.form : InfixOp → Form
  | .logical _ => .logical
  | .binary _ => .binary

mutual

def Expr.shape (slot : Slot) : Expr → Tree Label
  | .name x => ident slot x
  | .number loc _ => leaf slot .literal loc
  | .string loc _ => leaf slot .literal loc
  | .constant loc value => leaf slot value.form loc
  | .array loc items => .node ⟨slot, .array, loc⟩ (exprShapes items)
  | .function loc names body =>
    .node ⟨slot, .function .expression, loc⟩ (params names ++ [body.shape .functionBody])
  | .group _ inner => inner.shape slot
  | .arrow loc head body => .node ⟨slot, .function .arrow, loc⟩ (head.shapes ++ [body.shape])
  | .sequence loc left right =>
    .node ⟨slot, .sequence, loc⟩ (commaItems (left.shape .plain) ++ [right.shape .plain])
  | .assign loc _ target value =>
    .node ⟨slot, .assignment, loc⟩ [target.shape .plain, value.shape .plain]
  | .conditional loc test yes no =>
    .node ⟨slot, .conditional, loc⟩ [test.shape .plain, yes.shape .plain, no.shape .plain]
  | .operation loc op left right =>
    .node ⟨slot, op.form, loc⟩ [left.shape .plain, right.shape .plain]
  | .unary loc _ operand => .node ⟨slot, .unary, loc⟩ [operand.shape .plain]
  | .update loc _ _ operand => .node ⟨slot, .update, loc⟩ [operand.shape .plain]
  | .call loc callee args => .node ⟨slot, .call, loc⟩ (callee.shape .plain :: exprShapes args)
  | .member loc object property =>
    .node ⟨slot, .member, loc⟩ [object.shape .plain, ident .property property]
  | .index loc object key => .node ⟨slot, .member, loc⟩ [object.shape .plain, key.shape .plain]

def exprShapes : List Expr → List (Tree Label)
  | [] => []
  | first :: rest => first.shape .plain :: exprShapes rest

def exprOptionShapes : Option Expr → List (Tree Label)
  | none => []
  | some value => [value.shape .plain]

def ArrowHead.shapes : ArrowHead → List (Tree Label)
  | .empty => []
  | .name x => [ident .parameter x]
  | .group inner => (commaItems (inner.shape .plain)).map (inSlot .parameter)

def ArrowBody.shape : ArrowBody → Tree Label
  | .block body => body.shape .functionBody
  | .expr value => value.shape .plain

def Block.shape (slot : Slot) : Block → Tree Label
  | .mk loc body => .node ⟨slot, .block, loc⟩ (stmtShapes body)

def blockOptionShapes : Option Block → List (Tree Label)
  | none => []
  | some body => [body.shape .plain]

def declaratorShapes : List Declarator → List (Tree Label)
  | [] => []
  | .mk loc x init :: rest =>
    .node ⟨.plain, .declarator, loc⟩ (ident .declared x :: exprOptionShapes init) ::
      declaratorShapes rest

def Declaration.shape (loc : Loc) (slot : Slot) : Declaration → Tree Label
  | .mk _ kind items => .node ⟨slot, .declaration kind, loc⟩ (declaratorShapes items)

def forInitShapes : Option ForInit → List (Tree Label)
  | none => []
  | some (.declaration item) => [item.shape item.loc .plain]
  | some (.expr value) => [value.shape .plain]

def handlerShapes : Option CatchClause → List (Tree Label)
  | none => []
  | some (.mk loc param body) =>
    [.node ⟨.plain, .catchClause, loc⟩ [ident .caught param, body.shape .plain]]

def caseShapes : List Case → List (Tree Label)
  | [] => []
  | .mk loc test body :: rest =>
    .node ⟨.plain, .case, loc⟩ (exprOptionShapes test ++ stmtShapes body) :: caseShapes rest

def Stmt.shape (slot : Slot) : Stmt → Tree Label
  | .declaration loc item => item.shape loc slot
  | .function loc name names body =>
    .node ⟨slot, .function .declaration, loc⟩
      (ident .functionName name :: (params names ++ [body.shape .functionBody]))
  | .block body => body.shape slot
  | .ifElse loc test yes no =>
    .node ⟨slot, .ifElse, loc⟩ (test.shape .plain :: yes.shape .plain :: stmtOptionShapes no)
  | .forLoop loc init test update body =>
    .node ⟨slot, .loop .forLoop, loc⟩
      (forInitShapes init ++ exprOptionShapes test ++ exprOptionShapes update ++
        [body.shape .loopBody])
  | .forEach loc kind target subject body =>
    .node ⟨slot, .loop (.forEach kind), loc⟩
      [forTarget target, subject.shape .plain, body.shape .loopBody]
  | .whileLoop loc test body =>
    .node ⟨slot, .loop .whileLoop, loc⟩ [test.shape .plain, body.shape .loopBody]
  | .doWhile loc body test =>
    .node ⟨slot, .loop .doWhile, loc⟩ [body.shape .loopBody, test.shape .plain]
  | .returns loc value => .node ⟨slot, .returns, loc⟩ (exprOptionShapes value)
  | .breaks loc label => .node ⟨slot, .breaks (label.map Ident.name), loc⟩ (labelOption label)
  | .continues loc label => .node ⟨slot, .continues (label.map Ident.name), loc⟩ (labelOption label)
  | .throws loc value => .node ⟨slot, .throws, loc⟩ [value.shape .plain]
  | .tryCatch loc body handler finalizer =>
    .node ⟨slot, .tryCatch, loc⟩
      (body.shape .plain :: (handlerShapes handler ++ blockOptionShapes finalizer))
  | .switch loc subject cases =>
    .node ⟨slot, .switch, loc⟩ (subject.shape .plain :: caseShapes cases)
  | .labeled loc label body =>
    .node ⟨slot, .labeled label.name, loc⟩ [ident .label label, body.shape .plain]
  | .expr loc value => .node ⟨slot, .expression, loc⟩ [value.shape .plain]
  | .empty loc => leaf slot .empty loc

def stmtOptionShapes : Option Stmt → List (Tree Label)
  | none => []
  | some body => [body.shape .plain]

def stmtShapes : List Stmt → List (Tree Label)
  | [] => []
  | first :: rest => first.shape .plain :: stmtShapes rest

end

end Concrete

/-! ## Built programs -/

namespace Build

open Concrete

theorem bind_eq_ok {α β : Type} {part : Build α} {next : α → Build β} {result : β} :
    (part >>= next) = .ok result ↔ ∃ found, part = .ok found ∧ next found = .ok result := by
  cases part with
  | error fault => simp [bind, Except.bind]
  | ok found => simp [bind, Except.bind]

theorem pure_eq_ok {α : Type} {value result : α} :
    (pure value : Build α) = .ok result ↔ result = value := by
  simp [pure, Except.pure, eq_comm]

theorem ok_eq_ok {α : Type} {value result : α} :
    (Except.ok value : Build α) = .ok result ↔ result = value := by
  simp [eq_comm]

/-! Parts that are made of one, two or three others. -/

theorem one_eq_ok {α β : Type} {part : Build α} {make : α → β} {result : β} :
    (part >>= fun a => pure (make a)) = .ok result ↔ ∃ a, part = .ok a ∧ result = make a := by
  simp only [bind_eq_ok, pure_eq_ok]

theorem two_eq_ok {α β γ : Type} {part : Build α} {next : α → Build β} {make : α → β → γ}
    {result : γ} : (part >>= fun a => next a >>= fun b => pure (make a b)) = .ok result ↔
      ∃ a, part = .ok a ∧ ∃ b, next a = .ok b ∧ result = make a b := by
  simp only [bind_eq_ok, pure_eq_ok]

theorem three_eq_ok {α β γ δ : Type} {part : Build α} {next : α → Build β}
    {last : α → β → Build γ} {make : α → β → γ → δ} {result : δ} :
    (part >>= fun a => next a >>= fun b => last a b >>= fun c => pure (make a b c)) = .ok result ↔
      ∃ a, part = .ok a ∧ ∃ b, next a = .ok b ∧ ∃ c, last a b = .ok c ∧ result = make a b c := by
  simp only [bind_eq_ok, pure_eq_ok]

theorem params_eq_ok {names found : List Ident} (built : params names = .ok found) :
    found = names := by
  obtain ⟨-, -, done⟩ := bind_eq_ok.mp built
  exact pure_eq_ok.mp done

theorem target_eq_ok {value : Expr} {place : Place} (built : target value = .ok place) :
    value = .place place := by
  cases value with
  | place known => exact congrArg _ (ok_eq_ok.mp built).symm
  | _ => cases built

theorem shape_constant (slot : Slot) (loc : Loc) (value : Constant) :
    Outline.expr slot (constant loc value) = Outline.leaf slot value.form loc := by
  cases value <;> rfl

theorem shape_operation (slot : Slot) (loc : Loc) (op : InfixOp) (left right : Expr) :
    Outline.expr slot (operation loc op left right) =
      .node ⟨slot, op.form, loc⟩ [Outline.expr .plain left, Outline.expr .plain right] := by
  cases op <;> simp [operation, Outline.expr, InfixOp.form]

theorem exprs_append (items more : List Expr) :
    Outline.exprs (items ++ more) = Outline.exprs items ++ Outline.exprs more := by
  induction items with
  | nil => simp [Outline.exprs]
  | cons first rest ih => simp [Outline.exprs, ih]

theorem commaItems_expr (value : Expr) :
    Outline.commaItems (Outline.expr .plain value) = Outline.exprs (sequenceItems value) := by
  cases value with
  | place place =>
      cases place <;>
        simp [Outline.commaItems, Outline.expr, Outline.place, Outline.exprs, sequenceItems,
          Tree.label, Outline.ident, Outline.leaf]
  | _ =>
      simp [Outline.commaItems, Outline.expr, Outline.exprs, sequenceItems, Tree.label,
        Tree.children, Outline.leaf]

/-- The names before an arrow are the items of what stands in parentheses there. -/
theorem arrowParams_eq (value : Expr) : arrowParams value = plainNames (sequenceItems value) := by
  cases value <;> rfl

theorem shape_plainNames {items : List Expr} {names : List Ident}
    (built : plainNames items = .ok names) :
    Outline.params names = (Outline.exprs items).map (Outline.inSlot .parameter) := by
  induction items generalizing names with
  | nil =>
      obtain rfl := ok_eq_ok.mp built
      simp [Outline.exprs, Outline.params]
  | cons first rest ih =>
      match first with
      | .place (.ident x) =>
          obtain ⟨others, othersBuilt, rfl⟩ := one_eq_ok.mp built
          have tail := ih othersBuilt
          simp only [Outline.params] at tail
          simp [Outline.exprs, Outline.params, Outline.expr, Outline.place, Outline.ident,
            Outline.leaf, Outline.inSlot, tail]

theorem shape_arrowParams {value : Expr} {names : List Ident}
    (built : arrowParams value = .ok names) :
    Outline.params names =
      (Outline.commaItems (Outline.expr .plain value)).map (Outline.inSlot .parameter) := by
  rw [commaItems_expr]
  exact shape_plainNames ((arrowParams_eq value).symm.trans built)

mutual

theorem shape_expr (slot : Slot) {value : Expr} : ∀ {tree : Concrete.Expr},
    expr tree = .ok value → Outline.expr slot value = tree.shape slot
  | .name x, built => by
      obtain rfl := ok_eq_ok.mp built
      rfl
  | .number loc text, built => by
      obtain ⟨literal, -, rfl⟩ := one_eq_ok.mp built
      rfl
  | .string loc text, built => by
      obtain ⟨literal, -, rfl⟩ := one_eq_ok.mp built
      rfl
  | .constant loc word, built => by
      obtain rfl := ok_eq_ok.mp built
      exact shape_constant slot loc word
  | .array loc items, built => by
      obtain ⟨found, itemsBuilt, rfl⟩ := one_eq_ok.mp built
      simp only [Outline.expr, Expr.shape, shape_exprs itemsBuilt]
  | .function loc names body, built => by
      obtain ⟨found, namesBuilt, step⟩ := bind_eq_ok.mp built
      obtain rfl := params_eq_ok namesBuilt
      obtain ⟨block, blockBuilt, rfl⟩ := one_eq_ok.mp step
      simp only [Outline.expr, Expr.shape, shape_block .functionBody blockBuilt]
  | .group loc inner, built => by
      have innerBuilt : expr inner = .ok value := built
      have shaped := shape_expr slot innerBuilt
      exact shaped
  | .arrow loc head body, built => by
      obtain ⟨names, headBuilt, named⟩ := bind_eq_ok.mp built
      obtain ⟨found, namesBuilt, step⟩ := bind_eq_ok.mp named
      obtain rfl := params_eq_ok namesBuilt
      obtain ⟨inner, bodyBuilt, rfl⟩ := one_eq_ok.mp step
      simp only [Outline.expr, Expr.shape, shape_arrowHead headBuilt, shape_arrowBody bodyBuilt]
  | .sequence loc left right, built => by
      obtain ⟨first, leftBuilt, last, rightBuilt, rfl⟩ := two_eq_ok.mp built
      simp only [Outline.expr, Expr.shape, exprs_append, ← commaItems_expr, Outline.exprs,
        shape_expr .plain leftBuilt, shape_expr .plain rightBuilt]
  | .assign loc op left right, built => by
      obtain ⟨first, leftBuilt, place, placeBuilt, last, rightBuilt, rfl⟩ := three_eq_ok.mp built
      obtain rfl := target_eq_ok placeBuilt
      have leftShape := shape_expr .plain leftBuilt
      simp only [Outline.expr] at leftShape
      simp only [Outline.expr, Expr.shape, leftShape, shape_expr .plain rightBuilt]
  | .conditional loc test yes no, built => by
      obtain ⟨first, testBuilt, second, yesBuilt, third, noBuilt, rfl⟩ := three_eq_ok.mp built
      simp only [Outline.expr, Expr.shape, shape_expr .plain testBuilt, shape_expr .plain yesBuilt,
        shape_expr .plain noBuilt]
  | .operation loc op left right, built => by
      obtain ⟨first, leftBuilt, last, rightBuilt, rfl⟩ := two_eq_ok.mp built
      simp only [shape_operation, Expr.shape, shape_expr .plain leftBuilt,
        shape_expr .plain rightBuilt]
  | .unary loc op operand, built => by
      obtain ⟨inner, innerBuilt, rfl⟩ := one_eq_ok.mp built
      simp only [Outline.expr, Expr.shape, shape_expr .plain innerBuilt]
  | .update loc op before operand, built => by
      obtain ⟨inner, innerBuilt, place, placeBuilt, rfl⟩ := two_eq_ok.mp built
      obtain rfl := target_eq_ok placeBuilt
      have innerShape := shape_expr .plain innerBuilt
      simp only [Outline.expr] at innerShape
      simp only [Outline.expr, Expr.shape, innerShape]
  | .call loc callee args, built => by
      obtain ⟨items, argsBuilt, function, calleeBuilt, rfl⟩ := two_eq_ok.mp built
      simp only [Outline.expr, Expr.shape, shape_expr .plain calleeBuilt, shape_exprs argsBuilt]
  | .member loc object property, built => by
      obtain ⟨inner, innerBuilt, rfl⟩ := one_eq_ok.mp built
      simp only [Outline.expr, Outline.place, Expr.shape, shape_expr .plain innerBuilt]
  | .index loc object key, built => by
      obtain ⟨inner, innerBuilt, last, keyBuilt, rfl⟩ := two_eq_ok.mp built
      simp only [Outline.expr, Outline.place, Expr.shape, shape_expr .plain innerBuilt,
        shape_expr .plain keyBuilt]

theorem shape_exprs {items : List Expr} : ∀ {trees : List Concrete.Expr},
    exprs trees = .ok items → Outline.exprs items = exprShapes trees
  | [], built => by
      obtain rfl := ok_eq_ok.mp built
      rfl
  | first :: rest, built => by
      obtain ⟨value, valueBuilt, others, othersBuilt, rfl⟩ := two_eq_ok.mp built
      simp only [Outline.exprs, exprShapes, shape_expr .plain valueBuilt, shape_exprs othersBuilt]

theorem shape_exprOption {value : Option Expr} : ∀ {tree : Option Concrete.Expr},
    exprOption tree = .ok value → Outline.exprOption value = exprOptionShapes tree
  | none, built => by
      obtain rfl := ok_eq_ok.mp built
      rfl
  | some tree, built => by
      obtain ⟨inner, innerBuilt, rfl⟩ := one_eq_ok.mp built
      simp only [Outline.exprOption, exprOptionShapes, shape_expr .plain innerBuilt]

theorem shape_arrowHead {names : List Ident} : ∀ {head : ArrowHead},
    arrowHead head = .ok names → Outline.params names = head.shapes
  | .empty, built => by
      obtain rfl := ok_eq_ok.mp built
      rfl
  | .name x, built => by
      obtain rfl := ok_eq_ok.mp built
      rfl
  | .group inner, built => by
      obtain ⟨value, valueBuilt, done⟩ := bind_eq_ok.mp built
      simp only [shape_arrowParams done, ArrowHead.shapes, shape_expr .plain valueBuilt]

theorem shape_arrowBody {body : ArrowBody} : ∀ {tree : Concrete.ArrowBody},
    arrowBody tree = .ok body → Outline.arrowBody body = tree.shape
  | .block tree, built => by
      obtain ⟨inner, innerBuilt, rfl⟩ := one_eq_ok.mp built
      simp only [Outline.arrowBody, ArrowBody.shape, shape_block .functionBody innerBuilt]
  | .expr tree, built => by
      obtain ⟨inner, innerBuilt, rfl⟩ := one_eq_ok.mp built
      simp only [Outline.arrowBody, ArrowBody.shape, shape_expr .plain innerBuilt]

theorem shape_block (slot : Slot) {body : Block} : ∀ {tree : Concrete.Block},
    block tree = .ok body → Outline.block slot body = tree.shape slot
  | .mk loc trees, built => by
      obtain ⟨inner, innerBuilt, rfl⟩ := one_eq_ok.mp built
      simp only [Outline.block, Block.shape, shape_stmts innerBuilt]

theorem shape_blockOption {body : Option Block} : ∀ {tree : Option Concrete.Block},
    blockOption tree = .ok body → Outline.blockOption body = blockOptionShapes tree
  | none, built => by
      obtain rfl := ok_eq_ok.mp built
      rfl
  | some tree, built => by
      obtain ⟨inner, innerBuilt, rfl⟩ := one_eq_ok.mp built
      simp only [Outline.blockOption, blockOptionShapes, shape_block .plain innerBuilt]

theorem shape_declarators (kind : DeclKind) {items : List Declarator} :
    ∀ {trees : List Concrete.Declarator},
      declarators kind trees = .ok items → Outline.declarators items = declaratorShapes trees
  | [], built => by
      obtain rfl := ok_eq_ok.mp built
      rfl
  | .mk loc x init :: rest, built => by
      obtain ⟨value, valueBuilt, -, -, others, othersBuilt, rfl⟩ := three_eq_ok.mp built
      simp only [Outline.declarators, declaratorShapes, shape_exprOption valueBuilt,
        shape_declarators kind othersBuilt]

theorem shape_declaration (loc : Loc) (slot : Slot) {item : Declaration} :
    ∀ {tree : Concrete.Declaration},
      declaration loc tree = .ok item → Outline.declaration slot item = tree.shape loc slot
  | .mk _ kind trees, built => by
      obtain ⟨items, itemsBuilt, rfl⟩ := one_eq_ok.mp built
      simp only [Outline.declaration, Declaration.shape, shape_declarators kind itemsBuilt]

theorem shape_forInit {init : Option ForInit} : ∀ {tree : Option Concrete.ForInit},
    forInit tree = .ok init → Outline.forInit init = forInitShapes tree
  | none, built => by
      obtain rfl := ok_eq_ok.mp built
      rfl
  | some (.declaration tree), built => by
      obtain ⟨item, itemBuilt, rfl⟩ := one_eq_ok.mp built
      simp only [Outline.forInit, forInitShapes, shape_declaration tree.loc .plain itemBuilt]
  | some (.expr tree), built => by
      obtain ⟨value, valueBuilt, rfl⟩ := one_eq_ok.mp built
      simp only [Outline.forInit, forInitShapes, shape_expr .plain valueBuilt]

theorem shape_handler {clause : Option CatchClause} : ∀ {tree : Option Concrete.CatchClause},
    handler tree = .ok clause → Outline.handler clause = handlerShapes tree
  | none, built => by
      obtain rfl := ok_eq_ok.mp built
      rfl
  | some (.mk loc param tree), built => by
      obtain ⟨body, bodyBuilt, rfl⟩ := one_eq_ok.mp built
      simp only [Outline.handler, handlerShapes, shape_block .plain bodyBuilt]

theorem shape_cases {items : List Case} : ∀ {trees : List Concrete.Case},
    cases trees = .ok items → Outline.cases items = caseShapes trees
  | [], built => by
      obtain rfl := ok_eq_ok.mp built
      rfl
  | .mk loc test tree :: rest, built => by
      obtain ⟨value, valueBuilt, body, bodyBuilt, others, othersBuilt, rfl⟩ := three_eq_ok.mp built
      simp only [Outline.cases, caseShapes, shape_exprOption valueBuilt, shape_stmts bodyBuilt,
        shape_cases othersBuilt]

theorem shape_stmt (slot : Slot) {body : Stmt} : ∀ {tree : Concrete.Stmt},
    stmt tree = .ok body → Outline.stmt slot body = tree.shape slot
  | .declaration loc tree, built => by
      obtain ⟨item, itemBuilt, rfl⟩ := one_eq_ok.mp built
      exact shape_declaration loc slot itemBuilt
  | .function loc name names tree, built => by
      obtain ⟨found, namesBuilt, step⟩ := bind_eq_ok.mp built
      obtain rfl := params_eq_ok namesBuilt
      obtain ⟨inner, innerBuilt, rfl⟩ := one_eq_ok.mp step
      simp only [Outline.stmt, Stmt.shape, shape_block .functionBody innerBuilt]
  | .block tree, built => by
      obtain ⟨inner, innerBuilt, rfl⟩ := one_eq_ok.mp built
      exact shape_block slot innerBuilt
  | .ifElse loc test yes no, built => by
      obtain ⟨first, testBuilt, second, yesBuilt, third, noBuilt, rfl⟩ := three_eq_ok.mp built
      simp only [Outline.stmt, Stmt.shape, shape_expr .plain testBuilt, shape_stmt .plain yesBuilt,
        shape_stmtOption noBuilt]
  | .forLoop loc init test update tree, built => by
      obtain ⟨first, initBuilt, step⟩ := bind_eq_ok.mp built
      obtain ⟨second, testBuilt, third, updateBuilt, inner, innerBuilt, rfl⟩ := three_eq_ok.mp step
      simp only [Outline.stmt, Stmt.shape, shape_forInit initBuilt, shape_exprOption testBuilt,
        shape_exprOption updateBuilt, shape_stmt .loopBody innerBuilt]
  | .forEach loc kind target subject tree, built => by
      obtain ⟨value, valueBuilt, inner, innerBuilt, rfl⟩ := two_eq_ok.mp built
      simp only [Outline.stmt, Stmt.shape, shape_expr .plain valueBuilt,
        shape_stmt .loopBody innerBuilt]
  | .whileLoop loc test tree, built => by
      obtain ⟨value, valueBuilt, inner, innerBuilt, rfl⟩ := two_eq_ok.mp built
      simp only [Outline.stmt, Stmt.shape, shape_expr .plain valueBuilt,
        shape_stmt .loopBody innerBuilt]
  | .doWhile loc tree test, built => by
      obtain ⟨inner, innerBuilt, value, valueBuilt, rfl⟩ := two_eq_ok.mp built
      simp only [Outline.stmt, Stmt.shape, shape_expr .plain valueBuilt,
        shape_stmt .loopBody innerBuilt]
  | .returns loc tree, built => by
      obtain ⟨value, valueBuilt, rfl⟩ := one_eq_ok.mp built
      simp only [Outline.stmt, Stmt.shape, shape_exprOption valueBuilt]
  | .breaks loc label, built => by
      obtain rfl := ok_eq_ok.mp built
      rfl
  | .continues loc label, built => by
      obtain rfl := ok_eq_ok.mp built
      rfl
  | .throws loc tree, built => by
      obtain ⟨value, valueBuilt, rfl⟩ := one_eq_ok.mp built
      simp only [Outline.stmt, Stmt.shape, shape_expr .plain valueBuilt]
  | .tryCatch loc tree clause finalizer, built => by
      obtain ⟨first, clauseBuilt, second, finalizerBuilt, inner, innerBuilt, rfl⟩ :=
        three_eq_ok.mp built
      simp only [Outline.stmt, Stmt.shape, shape_block .plain innerBuilt, shape_handler clauseBuilt,
        shape_blockOption finalizerBuilt]
  | .switch loc subject trees, built => by
      obtain ⟨value, valueBuilt, items, itemsBuilt, rfl⟩ := two_eq_ok.mp built
      simp only [Outline.stmt, Stmt.shape, shape_expr .plain valueBuilt, shape_cases itemsBuilt]
  | .labeled loc label tree, built => by
      obtain ⟨inner, innerBuilt, rfl⟩ := one_eq_ok.mp built
      simp only [Outline.stmt, Stmt.shape, shape_stmt .plain innerBuilt]
  | .expr loc tree, built => by
      obtain ⟨value, valueBuilt, rfl⟩ := one_eq_ok.mp built
      simp only [Outline.stmt, Stmt.shape, shape_expr .plain valueBuilt]
  | .empty loc, built => by
      obtain rfl := ok_eq_ok.mp built
      rfl

theorem shape_stmtOption {body : Option Stmt} : ∀ {tree : Option Concrete.Stmt},
    stmtOption tree = .ok body → Outline.stmtOption body = stmtOptionShapes tree
  | none, built => by
      obtain rfl := ok_eq_ok.mp built
      rfl
  | some tree, built => by
      obtain ⟨inner, innerBuilt, rfl⟩ := one_eq_ok.mp built
      simp only [Outline.stmtOption, stmtOptionShapes, shape_stmt .plain innerBuilt]

theorem shape_stmts {body : List Stmt} : ∀ {trees : List Concrete.Stmt},
    stmts trees = .ok body → Outline.stmts body = stmtShapes trees
  | [], built => by
      obtain rfl := ok_eq_ok.mp built
      rfl
  | first :: rest, built => by
      obtain ⟨inner, innerBuilt, others, othersBuilt, rfl⟩ := two_eq_ok.mp built
      simp only [Outline.stmts, stmtShapes, shape_stmt .plain innerBuilt, shape_stmts othersBuilt]

end

end Build

end LoopCapture
