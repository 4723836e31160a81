import LoopCapture.Concrete.Basic

/-!
# Well-formed concrete trees

Expressions are stratified: an operand binds tighter than the operator that it belongs to, unless it
is in parentheses. An `if` statement without `else` branch does not come directly before the `else`
branch of another one. These are the trees that the grammar derives, one for each text.
-/

set_option autoImplicit false

namespace LoopCapture.Concrete

/-- How tightly an operator binds, from disjunction on. -/
def InfixOp.level : InfixOp → Nat
  | .logical .or => 0
  | .logical .and => 1
  | .binary (.equal _) => 2
  | .binary (.order _) => 3
  | .binary (.arith .add) => 4
  | .binary (.arith .sub) => 4
  | .binary (.arith .mul) => 5
  | .binary (.arith .div) => 5
  | .binary (.arith .rem) => 5

namespace Grade

/-- Expressions without commas. -/
abbrev assignment : Nat := 1

/-- Conditional expressions, and everything tighter. -/
abbrev conditional : Nat := 2

/-- Operators between operands, and everything tighter. -/
abbrev operation : Nat := 3

abbrev unary : Nat := 9

abbrev call : Nat := 11

abbrev primary : Nat := 12

end Grade

/-- How tightly an expression holds together. -/
def Expr.grade : Expr → Nat
  | .sequence .. => 0
  | .assign .. => 1
  | .arrow .. => 1
  | .conditional .. => 2
  | .operation _ op _ _ => Grade.operation + op.level
  | .unary .. => 9
  | .update _ _ true _ => 9
  | .update _ _ false _ => 10
  | .call .. => 11
  | .member .. => 11
  | .index .. => 11
  | _ => 12

/-- Whether an expression without commas ends with the block of an arrow function, so that nothing
can go on with it. An assignment operator after it belongs to a conditional around it. -/
def Expr.endsInBlock : Expr → Bool
  | .arrow _ _ (.block _) => true
  | .arrow _ _ (.expr value) => value.endsInBlock
  | .assign _ _ _ value => value.endsInBlock
  | _ => false

def Expr.isLeftSide : Expr → Bool
  | .conditional _ _ _ no => no.endsInBlock
  | target => Grade.operation ≤ target.grade

theorem Expr.isLeftSide_of_grade {target : Expr} (tight : Grade.operation ≤ target.grade) :
    target.isLeftSide = true := by
  unfold Expr.isLeftSide
  split
  · exact absurd tight (Nat.lt_irrefl Grade.conditional)
  · exact decide_eq_true tight

/-- Whether a statement would take an `else` after it as its own. -/
def Stmt.takesElse : Stmt → Bool
  | .ifElse _ _ _ none => true
  | .ifElse _ _ _ (some no) => no.takesElse
  | .forLoop _ _ _ _ body => body.takesElse
  | .forEach _ _ _ _ body => body.takesElse
  | .whileLoop _ _ body => body.takesElse
  | .labeled _ _ body => body.takesElse
  | _ => false

mutual

/-- An expression is well formed. -/
def Expr.WellFormed : Expr → Prop
  | .name _ => True
  | .number _ _ => True
  | .string _ _ => True
  | .constant _ _ => True
  | .array _ items => exprsWellFormed items
  | .function _ _ body => body.WellFormed
  | .group _ inner => inner.WellFormed
  | .arrow _ head body => head.WellFormed ∧ body.WellFormed
  | .sequence _ left right => left.WellFormed ∧ right.WellFormed ∧ Grade.assignment ≤ right.grade
  | .assign _ _ target value =>
    target.WellFormed ∧ target.isLeftSide ∧
      value.WellFormed ∧ Grade.assignment ≤ value.grade
  | .conditional _ test yes no =>
    test.WellFormed ∧ Grade.operation ≤ test.grade ∧
      yes.WellFormed ∧ Grade.assignment ≤ yes.grade ∧ no.WellFormed ∧ Grade.assignment ≤ no.grade
  | .operation _ op left right =>
    left.WellFormed ∧ Grade.operation + op.level ≤ left.grade ∧
      right.WellFormed ∧ Grade.operation + op.level < right.grade
  | .unary _ _ operand => operand.WellFormed ∧ Grade.unary ≤ operand.grade
  | .update _ _ true operand => operand.WellFormed ∧ Grade.unary ≤ operand.grade
  | .update _ _ false operand => operand.WellFormed ∧ Grade.call ≤ operand.grade
  | .call _ callee args => callee.WellFormed ∧ Grade.call ≤ callee.grade ∧ exprsWellFormed args
  | .member _ object _ => object.WellFormed ∧ Grade.call ≤ object.grade
  | .index _ object key => object.WellFormed ∧ Grade.call ≤ object.grade ∧ key.WellFormed

def exprsWellFormed : List Expr → Prop
  | [] => True
  | first :: rest => first.WellFormed ∧ Grade.assignment ≤ first.grade ∧ exprsWellFormed rest

def exprOptionWellFormed : Option Expr → Prop
  | none => True
  | some value => value.WellFormed

def ArrowHead.WellFormed : ArrowHead → Prop
  | .empty => True
  | .name _ => True
  | .group inner => inner.WellFormed

def ArrowBody.WellFormed : ArrowBody → Prop
  | .block body => body.WellFormed
  | .expr value => value.WellFormed ∧ Grade.assignment ≤ value.grade

def Block.WellFormed : Block → Prop
  | .mk _ body => stmtsWellFormed body

def declaratorsWellFormed : List Declarator → Prop
  | [] => True
  | .mk _ _ init :: rest => initWellFormed init ∧ declaratorsWellFormed rest

def initWellFormed : Option Expr → Prop
  | none => True
  | some value => value.WellFormed ∧ Grade.assignment ≤ value.grade

def Declaration.WellFormed : Declaration → Prop
  | .mk _ _ declarators => declarators ≠ [] ∧ declaratorsWellFormed declarators

def forInitWellFormed : Option ForInit → Prop
  | none => True
  | some (.declaration item) => item.WellFormed
  | some (.expr value) => value.WellFormed

def handlerWellFormed : Option CatchClause → Prop
  | none => True
  | some (.mk _ _ body) => body.WellFormed

def finalizerWellFormed : Option Block → Prop
  | none => True
  | some body => body.WellFormed

def casesWellFormed : List Case → Prop
  | [] => True
  | .mk _ test body :: rest =>
    exprOptionWellFormed test ∧ stmtsWellFormed body ∧ casesWellFormed rest

def Stmt.WellFormed : Stmt → Prop
  | .declaration _ item => item.WellFormed
  | .function _ _ _ body => body.WellFormed
  | .block body => body.WellFormed
  | .ifElse _ test yes no =>
    test.WellFormed ∧ yes.WellFormed ∧ elseWellFormed no ∧ (no.isSome → yes.takesElse = false)
  | .forLoop _ init test update body =>
    forInitWellFormed init ∧ exprOptionWellFormed test ∧ exprOptionWellFormed update ∧
      body.WellFormed
  | .forEach _ kind _ subject body =>
    subject.WellFormed ∧ (kind = .values → Grade.assignment ≤ subject.grade) ∧ body.WellFormed
  | .whileLoop _ test body => test.WellFormed ∧ body.WellFormed
  | .doWhile _ body test => body.WellFormed ∧ test.WellFormed
  | .returns _ value => exprOptionWellFormed value
  | .breaks _ _ => True
  | .continues _ _ => True
  | .throws _ value => value.WellFormed
  | .tryCatch _ body handler finalizer =>
    body.WellFormed ∧ handlerWellFormed handler ∧ finalizerWellFormed finalizer ∧
      (handler.isSome ∨ finalizer.isSome)
  | .switch _ subject cases => subject.WellFormed ∧ casesWellFormed cases
  | .labeled _ _ body => body.WellFormed
  | .expr _ value => value.WellFormed
  | .empty _ => True

def elseWellFormed : Option Stmt → Prop
  | none => True
  | some body => body.WellFormed

def stmtsWellFormed : List Stmt → Prop
  | [] => True
  | first :: rest => first.WellFormed ∧ stmtsWellFormed rest

end

end LoopCapture.Concrete
