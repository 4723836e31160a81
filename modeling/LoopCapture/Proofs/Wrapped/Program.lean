import LoopCapture.Program.Basic

/-!
# Programs with wrapped loop bodies

What wrapping means on syntax trees, without offsets and insertions. The loops to be wrapped are
given by their places. A body in braces keeps its braces around the call of the wrapping function;
any other body is replaced by that call.
-/

set_option autoImplicit false

namespace LoopCapture

/-! ## Names of a scope -/

/-- The block scoped variable that a loop over a collection declares. -/
def ForTarget.blockIdent? : ForTarget → Option Ident
  | .declared _ kind ident => if kind.isBlockScoped then some ident else none
  | .existing _ => none

/-- Whether the first part of a header declares block scoped variables. -/
def ForInit.isBlockScoped : Option ForInit → Bool
  | some (.declaration item) => item.kind.isBlockScoped
  | _ => false

def Declaration.blockNames (declaration : Declaration) : List String :=
  if declaration.kind.isBlockScoped then declaration.names else []

mutual

/-- The names that a statement declares in the scope around it. Variables declared by `var` belong
to a function and are not among them. -/
def Stmt.scopeNames : Stmt → List String
  | .declaration item => item.blockNames
  | .function _ name _ _ => [name.name]
  | .ifElse _ _ yes no => yes.scopeNames ++ scopeNamesOption no
  | .forLoop _ init _ _ body => if ForInit.isBlockScoped init then [] else body.scopeNames
  | .forEach _ _ target _ body => if target.blockIdent?.isSome then [] else body.scopeNames
  | .whileLoop _ _ body => body.scopeNames
  | .doWhile _ body _ => body.scopeNames
  | .labeled _ _ body => body.scopeNames
  | _ => []

def scopeNamesOption : Option Stmt → List String
  | none => []
  | some body => body.scopeNames

end

def Block.scopeNames (block : Block) : List String :=
  block.body.flatMap Stmt.scopeNames

/-- The names that a loop body in braces declares in its own scope. -/
def Stmt.ownNames : Stmt → List String
  | .block body => body.scopeNames
  | _ => []

/-! ## The wrapping function -/

/-- The parameter of the wrapping function: the iteration variable, unless the body hides it. -/
def ForTarget.wrapParam (target : ForTarget) (body : Stmt) : Option Ident :=
  target.blockIdent?.filter fun ident => !body.ownNames.contains ident.name

/-- The call of a function with the given statements, which hands on `this` and the parameter. -/
def Stmt.wrapper (loc : Loc) (param : Option Ident) (body : List Stmt) : Stmt :=
  let function := Expr.function loc param.toList (.mk loc body)
  let arguments := Expr.this loc :: (param.map fun ident => Expr.place (.ident ident)).toList
  .expr loc (.call loc (.place (.member loc function ⟨"call", loc⟩)) arguments)

def Stmt.wrapped (loc : Loc) (param : Option Ident) : Stmt → Stmt
  | .block (.mk inner body) => .block (.mk inner [wrapper loc param body])
  | body => wrapper loc param [body]

/-- A loop body moved into a function if the loop is among the chosen ones. -/
def Stmt.wrappedIf (chosen : Bool) (loc : Loc) (param : Option Ident) (body : Stmt) : Stmt :=
  if chosen then body.wrapped loc param else body

/-! ## All chosen loops -/

namespace WrapLoops

variable (chosen : Loc → Bool)

mutual

def place : Place → Place
  | .ident x => .ident x
  | .member loc object property => .member loc (expr object) property
  | .index loc object key => .index loc (expr object) (expr key)

def expr : Expr → Expr
  | .place target => .place (place target)
  | .literal loc value spelling => .literal loc value spelling
  | .this loc => .this loc
  | .array loc items => .array loc (exprs items)
  | .function loc names body => .function loc names (block body)
  | .arrow loc names body => .arrow loc names (arrowBody body)
  | .call loc callee args => .call loc (expr callee) (exprs args)
  | .assign loc op target value => .assign loc op (place target) (expr value)
  | .update loc op before target => .update loc op before (place target)
  | .binary loc op left right => .binary loc op (expr left) (expr right)
  | .logical loc op left right => .logical loc op (expr left) (expr right)
  | .unary loc op operand => .unary loc op (expr operand)
  | .conditional loc test yes no => .conditional loc (expr test) (expr yes) (expr no)
  | .sequence loc items => .sequence loc (exprs items)

def exprs : List Expr → List Expr
  | [] => []
  | first :: rest => expr first :: exprs rest

def exprOption : Option Expr → Option Expr
  | none => none
  | some value => some (expr value)

def arrowBody : ArrowBody → ArrowBody
  | .block body => .block (block body)
  | .expr value => .expr (expr value)

def block : Block → Block
  | .mk loc body => .mk loc (stmts body)

def blockOption : Option Block → Option Block
  | none => none
  | some body => some (block body)

def declarators : List Declarator → List Declarator
  | [] => []
  | .mk loc x init :: rest => .mk loc x (exprOption init) :: declarators rest

def declaration : Declaration → Declaration
  | .mk loc kind items => .mk loc kind (declarators items)

def forInit : Option ForInit → Option ForInit
  | none => none
  | some (.declaration item) => some (.declaration (declaration item))
  | some (.expr value) => some (.expr (expr value))

def handler : Option CatchClause → Option CatchClause
  | none => none
  | some (.mk loc param body) => some (.mk loc param (block body))

def cases : List Case → List Case
  | [] => []
  | .mk loc test body :: rest => .mk loc (exprOption test) (stmts body) :: cases rest

def stmt : Stmt → Stmt
  | .declaration item => .declaration (declaration item)
  | .function loc name names body => .function loc name names (block body)
  | .block body => .block (block body)
  | .expr loc value => .expr loc (expr value)
  | .empty loc => .empty loc
  | .ifElse loc test yes no => .ifElse loc (expr test) (stmt yes) (stmtOption no)
  | .forLoop loc init test update body =>
    .forLoop loc (forInit init) (exprOption test) (exprOption update)
      ((stmt body).wrappedIf (chosen loc) loc none)
  | .forEach loc kind target subject body =>
    .forEach loc kind target (expr subject)
      ((stmt body).wrappedIf (chosen loc) loc (target.wrapParam body))
  | .whileLoop loc test body =>
    .whileLoop loc (expr test) ((stmt body).wrappedIf (chosen loc) loc none)
  | .doWhile loc body test =>
    .doWhile loc ((stmt body).wrappedIf (chosen loc) loc none) (expr test)
  | .returns loc value => .returns loc (exprOption value)
  | .breaks loc label => .breaks loc label
  | .continues loc label => .continues loc label
  | .throws loc value => .throws loc (expr value)
  | .tryCatch loc body clause finalizer =>
    .tryCatch loc (block body) (handler clause) (blockOption finalizer)
  | .switch loc subject items => .switch loc (expr subject) (cases items)
  | .labeled loc label body => .labeled loc label (stmt body)

def stmtOption : Option Stmt → Option Stmt
  | none => none
  | some body => some (stmt body)

def stmts : List Stmt → List Stmt
  | [] => []
  | first :: rest => stmt first :: stmts rest

end

/-! ## No chosen loops -/

@[simp] theorem wrappedIf_false (loc : Loc) (param : Option Ident) (body : Stmt) :
    body.wrappedIf false loc param = body := rfl

theorem all_none :
    (∀ target, place (fun _ => false) target = target) ∧
    (∀ value, expr (fun _ => false) value = value) ∧
    (∀ body, arrowBody (fun _ => false) body = body) ∧
    (∀ body, block (fun _ => false) body = body) ∧
    (∀ body, stmts (fun _ => false) body = body) ∧
    (∀ body, stmt (fun _ => false) body = body) ∧
    (∀ items, cases (fun _ => false) items = items) ∧
    (∀ value, exprOption (fun _ => false) value = value) ∧
    (∀ body, blockOption (fun _ => false) body = body) ∧
    (∀ clause, handler (fun _ => false) clause = clause) ∧
    (∀ init, forInit (fun _ => false) init = init) ∧
    (∀ item, declaration (fun _ => false) item = item) ∧
    (∀ items, declarators (fun _ => false) items = items) ∧
    (∀ body, stmtOption (fun _ => false) body = body) ∧
    ∀ items, exprs (fun _ => false) items = items := by
  apply place.mutual_induct
  all_goals
    intros
    simp_all [place, expr, exprs, exprOption, arrowBody, block, blockOption, declarators, declaration,
      forInit, handler, cases, stmt, stmtOption, stmts]

end WrapLoops

/-- A program with the bodies of the chosen loops moved into functions. -/
def Program.wrapLoops (chosen : Loc → Bool) (program : Program) : Program :=
  { program with body := WrapLoops.stmts chosen program.body }

theorem Program.wrapLoops_none (program : Program) : program.wrapLoops (fun _ => false) = program := by
  rw [wrapLoops, WrapLoops.all_none.2.2.2.2.1]

end LoopCapture
