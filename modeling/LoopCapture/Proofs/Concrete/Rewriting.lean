import LoopCapture.Proofs.Concrete.Strata
import LoopCapture.Proofs.Concrete.Terminals
import LoopCapture.Proofs.Wrapped.Program

/-!
# Concrete trees with wrapped loop bodies

The concrete syntax of wrapping: the loops that a plan names get the statements of their bodies put
into a function in parentheses, which is called in place. Places are left out, so with the empty
plan a tree only loses its places, and it stays as well formed as it was.
-/

set_option autoImplicit false

namespace LoopCapture

/-- The place of everything in a program without places. -/
def Loc.nowhere : Loc := ⟨0, 0, 0, 0⟩

/-- A name without its place. -/
def Ident.unplaced (x : Ident) : Ident := ⟨x.name, .nowhere⟩

/-- The left side of a loop over a collection without its places. -/
def ForTarget.unplaced : ForTarget → ForTarget
  | .declared _ kind x => .declared .nowhere kind x.unplaced
  | .existing x => .existing x.unplaced

/-- Which loops are to be wrapped, by their places, and whether their iteration variables become
parameters. -/
abbrev WrapPlan := Loc → Option Bool

namespace Concrete

/-- The call of a function with the given statements, which hands on `this` and the parameter. -/
def Stmt.wrapper (param : Option Ident) (body : List Stmt) : Stmt :=
  let function := Expr.function .nowhere (param.map Ident.unplaced).toList (.mk .nowhere body)
  let arguments :=
    Expr.constant .nowhere .this :: (param.map fun x => Expr.name x.unplaced).toList
  .expr .nowhere (.call .nowhere (.member .nowhere (.group .nowhere function) ⟨"call", .nowhere⟩)
    arguments)

def Stmt.wrapped (param : Option Ident) : Stmt → Stmt
  | .block (.mk _ body) => .block (.mk .nowhere [wrapper param body])
  | body => wrapper param [body]

/-- A loop body moved into a function if its loop is to be wrapped, given the variable that the loop
may hand on. -/
def Stmt.wrappedIf (chosen : Option Bool) (param : Option Ident) (body : Stmt) : Stmt :=
  match chosen with
  | none => body
  | some threads => body.wrapped (if threads then param else none)

namespace Rewrite

variable (plan : WrapPlan)

mutual

def expr : Expr → Expr
  | .name x => .name x.unplaced
  | .number _ text => .number .nowhere text
  | .string _ text => .string .nowhere text
  | .constant _ value => .constant .nowhere value
  | .array _ items => .array .nowhere (exprs items)
  | .function _ names body => .function .nowhere (names.map Ident.unplaced) (block body)
  | .group _ inner => .group .nowhere (expr inner)
  | .arrow _ head body => .arrow .nowhere (arrowHead head) (arrowBody body)
  | .sequence _ left right => .sequence .nowhere (expr left) (expr right)
  | .assign _ op target value => .assign .nowhere op (expr target) (expr value)
  | .conditional _ test yes no => .conditional .nowhere (expr test) (expr yes) (expr no)
  | .operation _ op left right => .operation .nowhere op (expr left) (expr right)
  | .unary _ op operand => .unary .nowhere op (expr operand)
  | .update _ op before operand => .update .nowhere op before (expr operand)
  | .call _ callee args => .call .nowhere (expr callee) (exprs args)
  | .member _ object property => .member .nowhere (expr object) property.unplaced
  | .index _ object key => .index .nowhere (expr object) (expr key)

def exprs : List Expr → List Expr
  | [] => []
  | first :: rest => expr first :: exprs rest

def exprOption : Option Expr → Option Expr
  | none => none
  | some value => some (expr value)

def arrowHead : ArrowHead → ArrowHead
  | .empty => .empty
  | .name x => .name x.unplaced
  | .group inner => .group (expr inner)

def arrowBody : ArrowBody → ArrowBody
  | .block body => .block (block body)
  | .expr value => .expr (expr value)

def block : Block → Block
  | .mk _ body => .mk .nowhere (stmts body)

def blockOption : Option Block → Option Block
  | none => none
  | some body => some (block body)

def declarators : List Declarator → List Declarator
  | [] => []
  | .mk _ x init :: rest => .mk .nowhere x.unplaced (exprOption init) :: declarators rest

def declaration : Declaration → Declaration
  | .mk _ kind items => .mk .nowhere kind (declarators items)

def forInit : Option ForInit → Option ForInit
  | none => none
  | some (.declaration item) => some (.declaration (declaration item))
  | some (.expr value) => some (.expr (expr value))

def handler : Option CatchClause → Option CatchClause
  | none => none
  | some (.mk _ param body) => some (.mk .nowhere param.unplaced (block body))

def cases : List Case → List Case
  | [] => []
  | .mk _ test body :: rest => .mk .nowhere (exprOption test) (stmts body) :: cases rest

def stmt : Stmt → Stmt
  | .declaration _ item => .declaration .nowhere (declaration item)
  | .function _ name names body =>
    .function .nowhere name.unplaced (names.map Ident.unplaced) (block body)
  | .block body => .block (block body)
  | .ifElse _ test yes no => .ifElse .nowhere (expr test) (stmt yes) (stmtOption no)
  | .forLoop loc init test update body =>
    .forLoop .nowhere (forInit init) (exprOption test) (exprOption update)
      ((stmt body).wrappedIf (plan loc) none)
  | .forEach loc kind target subject body =>
    .forEach .nowhere kind target.unplaced (expr subject)
      ((stmt body).wrappedIf (plan loc) target.blockIdent?)
  | .whileLoop loc test body =>
    .whileLoop .nowhere (expr test) ((stmt body).wrappedIf (plan loc) none)
  | .doWhile loc body test =>
    .doWhile .nowhere ((stmt body).wrappedIf (plan loc) none) (expr test)
  | .returns _ value => .returns .nowhere (exprOption value)
  | .breaks _ label => .breaks .nowhere (label.map Ident.unplaced)
  | .continues _ label => .continues .nowhere (label.map Ident.unplaced)
  | .throws _ value => .throws .nowhere (expr value)
  | .tryCatch _ body clause finalizer =>
    .tryCatch .nowhere (block body) (handler clause) (blockOption finalizer)
  | .switch _ subject items => .switch .nowhere (expr subject) (cases items)
  | .labeled _ label body => .labeled .nowhere label.unplaced (stmt body)
  | .expr _ value => .expr .nowhere (expr value)
  | .empty _ => .empty .nowhere

def stmtOption : Option Stmt → Option Stmt
  | none => none
  | some body => some (stmt body)

def stmts : List Stmt → List Stmt
  | [] => []
  | first :: rest => stmt first :: stmts rest

end

/-! ## Well-formedness -/

@[simp]
theorem grade_expr (value : Expr) : (expr plan value).grade = value.grade := by
  cases value with
  | update loc op before operand => cases before <;> simp [expr, Expr.grade]
  | _ => simp [expr, Expr.grade]

@[simp]
theorem endsInBlock_expr (value : Expr) : (expr plan value).endsInBlock = value.endsInBlock := by
  fun_induction Expr.endsInBlock value with
  | case1 loc head body => simp [expr, arrowBody, Expr.endsInBlock]
  | case2 loc head value ih =>
      simp [expr, arrowBody, Expr.endsInBlock, ih]
  | case3 loc op target value ih =>
      simp [expr, Expr.endsInBlock, ih]
  | case4 value notBlock notExpr notAssign =>
      cases value with
      | arrow loc head body =>
          cases body with
          | block body => exact (notBlock loc head body rfl).elim
          | expr value => exact (notExpr loc head value rfl).elim
      | assign loc op target value => exact (notAssign loc op target value rfl).elim
      | _ => simp [expr, Expr.endsInBlock]

@[simp]
theorem isLeftSide_expr (value : Expr) : (expr plan value).isLeftSide = value.isLeftSide := by
  cases value with
  | conditional loc test yes no => simp [expr, Expr.isLeftSide, endsInBlock_expr]
  | update loc op before operand => cases before <;> rfl
  | _ => rfl

@[simp]
theorem takesElse_unplaced : ∀ body : Stmt, (stmt (fun _ => none) body).takesElse = body.takesElse
  | .ifElse _ _ _ none => rfl
  | .ifElse _ _ _ (some no) => takesElse_unplaced no
  | .forLoop _ _ _ _ body | .forEach _ _ _ _ body | .whileLoop _ _ body | .labeled _ _ body =>
    takesElse_unplaced body
  | .declaration .. | .function .. | .block .. | .doWhile .. | .returns .. | .breaks ..
  | .continues .. | .throws .. | .tryCatch .. | .switch .. | .expr .. | .empty .. => rfl

@[simp]
theorem declarators_eq_nil {items : List Declarator} :
    declarators plan items = [] ↔ items = [] := by
  match items with
  | [] | .mk .. :: _ => simp [declarators]

@[simp]
theorem isSome_stmtOption (body : Option Stmt) : (stmtOption plan body).isSome = body.isSome := by
  cases body <;> rfl

@[simp]
theorem isSome_handler (clause : Option CatchClause) :
    (handler plan clause).isSome = clause.isSome := by
  match clause with
  | none | some (.mk ..) => rfl

@[simp]
theorem isSome_blockOption (body : Option Block) :
    (blockOption plan body).isSome = body.isSome := by
  cases body <;> rfl

/-- Without places every part of a tree is as well formed as it was. -/
theorem unplaced_wellFormed :
    (∀ value, (expr (fun _ => none) value).WellFormed ↔ value.WellFormed) ∧
    (∀ body, (arrowBody (fun _ => none) body).WellFormed ↔ body.WellFormed) ∧
    (∀ body, (block (fun _ => none) body).WellFormed ↔ body.WellFormed) ∧
    (∀ body, stmtsWellFormed (stmts (fun _ => none) body) ↔ stmtsWellFormed body) ∧
    (∀ body, (stmt (fun _ => none) body).WellFormed ↔ body.WellFormed) ∧
    (∀ items, casesWellFormed (cases (fun _ => none) items) ↔ casesWellFormed items) ∧
    (∀ value, (exprOptionWellFormed (exprOption (fun _ => none) value) ↔
      exprOptionWellFormed value) ∧
      (initWellFormed (exprOption (fun _ => none) value) ↔ initWellFormed value)) ∧
    (∀ body, finalizerWellFormed (blockOption (fun _ => none) body) ↔ finalizerWellFormed body) ∧
    (∀ clause, handlerWellFormed (handler (fun _ => none) clause) ↔ handlerWellFormed clause) ∧
    (∀ init, forInitWellFormed (forInit (fun _ => none) init) ↔ forInitWellFormed init) ∧
    (∀ item, (declaration (fun _ => none) item).WellFormed ↔ item.WellFormed) ∧
    (∀ items, declaratorsWellFormed (declarators (fun _ => none) items) ↔
      declaratorsWellFormed items) ∧
    (∀ body, elseWellFormed (stmtOption (fun _ => none) body) ↔ elseWellFormed body) ∧
    (∀ head, (arrowHead (fun _ => none) head).WellFormed ↔ head.WellFormed) ∧
    ∀ items, exprsWellFormed (exprs (fun _ => none) items) ↔ exprsWellFormed items := by
  apply expr.mutual_induct
  case case14 =>
    intro loc op before operand ih
    cases before <;> simp [expr, Expr.WellFormed, ih]
  all_goals
    intros
    simp_all [expr, exprs, exprOption, arrowHead, arrowBody, block, blockOption, declarators,
      declaration, forInit, handler, cases, stmt, stmtOption, stmts, Stmt.wrappedIf, Expr.WellFormed,
      exprsWellFormed, exprOptionWellFormed, initWellFormed, ArrowHead.WellFormed,
      ArrowBody.WellFormed, Block.WellFormed, finalizerWellFormed, declaratorsWellFormed,
      Declaration.WellFormed, forInitWellFormed, handlerWellFormed, casesWellFormed,
      Stmt.WellFormed, elseWellFormed, stmtsWellFormed]

theorem stmts_unplaced_wellFormed (body : List Stmt) :
    stmtsWellFormed (stmts (fun _ => none) body) ↔ stmtsWellFormed body :=
  unplaced_wellFormed.2.2.2.1 body

end Rewrite

end Concrete

end LoopCapture
