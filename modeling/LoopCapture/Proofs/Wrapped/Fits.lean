import LoopCapture.Machine.Hoisting
import LoopCapture.Proofs.Wrapped.Program

/-!
# Code that means the same in two runs

Two runs are compared in which something differs: either loops are wrapped in the second one, or the
first one has no block scopes. `Fits` says of a piece of code that the difference is harmless where
it stands. Two things depend on the place: whether `arguments` may be used, and whether `return` may.
Neither may directly in a wrapped body. A function that is no arrow function has its own `arguments`,
and an arrow function has one if a parameter or a `var` declaration says so.
-/

set_option autoImplicit false

namespace LoopCapture

/-- What differs between two runs of a program. -/
inductive Difference where
  /-- The second run has the chosen loops wrapped. -/
  | wrapping (chosen : Loc → Bool)
  /-- The first run has no block scopes. -/
  | scoping

namespace Difference

/-- The loops that the second run has wrapped. -/
def chosen : Difference → Loc → Bool
  | wrapping chosen => chosen
  | scoping => fun _ => false

/-- The scoping of the first run; the second one always has block scopes. -/
def rule : Difference → Scoping
  | wrapping _ => .block
  | scoping => .function

theorem rule_of_chosen {diff : Difference} {loc : Loc} (chosen : diff.chosen loc = true) :
    diff.rule = .block := by
  cases diff with
  | wrapping => rfl
  | scoping => cases chosen

/-- Without block scopes on one side there are no declarations that would belong to blocks. -/
def Allows (diff : Difference) (kind : DeclKind) : Prop :=
  diff = .scoping → kind.isBlockScoped = false

theorem Allows.inBlock {diff : Difference} {kind : DeclKind} (allowed : diff.Allows kind) :
    diff.rule.inBlock kind = kind.isBlockScoped := by
  cases diff with
  | wrapping => rfl
  | scoping => exact (allowed rfl).symm

end Difference

/-- What code may do at some place. -/
structure Position where
  /-- Whether it may use the variable `arguments`. -/
  arguments : Bool
  /-- Whether it may return from the function around it. -/
  returns : Bool

namespace Position

def wrapped : Position := ⟨false, false⟩

def inFunction (arguments : Bool) : Position := ⟨arguments, true⟩

end Position

/-- A name that code may read and assign. `this` is never one. -/
def Ident.Usable (arguments : Bool) (ident : Ident) : Prop :=
  ident.name ≠ "this" ∧ (arguments = false → ident.name ≠ "arguments")

/-- A name that code may declare. -/
def Ident.Declarable (ident : Ident) : Prop := ident.name ≠ "this"

def Stmt.isBlock : Stmt → Bool
  | .block _ => true
  | _ => false

def Stmt.isFunction : Stmt → Bool
  | .function .. => true
  | _ => false

/-- Without block scopes on one side a nested list of statements declares no functions. -/
def Difference.Plain (diff : Difference) (body : List Stmt) : Prop :=
  diff = .scoping → ∀ stmt ∈ body, stmt.isFunction = false

/-- A loop body that can be moved into a function: it is in braces and declares nothing by `var`. -/
structure Difference.Moves (diff : Difference) (body : Stmt) : Prop where
  rule : diff.rule = .block
  isBlock : body.isBlock = true
  hoisted : body.hoisted .block = []

def ArrowBody.declaresArguments (scoping : Scoping) (params : List String) : ArrowBody → Bool
  | .block body =>
    params.contains "arguments" || (hoistedNames scoping body.body).contains "arguments"
  | .expr _ => params.contains "arguments"

def ArrowBody.usesArguments (scoping : Scoping) (around : Bool) (params : List String)
    (body : ArrowBody) : Bool :=
  around || body.declaresArguments scoping params

namespace Fits

variable (diff : Difference)

mutual

def place (arguments : Bool) : Place → Prop
  | .ident x => x.Usable arguments
  | .member _ object _ => expr arguments object
  | .index _ object key => expr arguments object ∧ expr arguments key

def expr (arguments : Bool) : Expr → Prop
  | .place target => place arguments target
  | .literal _ _ _ => True
  | .this _ => True
  | .array _ items => exprs arguments items
  | .function _ names body => (∀ x ∈ names, x.Declarable) ∧ block (.inFunction true) body
  | .arrow _ names body =>
    (∀ x ∈ names, x.Declarable) ∧
      arrowBody (body.usesArguments diff.rule arguments (names.map Ident.name)) body
  | .call _ callee args => expr arguments callee ∧ exprs arguments args
  | .assign _ _ target value => place arguments target ∧ expr arguments value
  | .update _ _ _ target => place arguments target
  | .binary _ _ left right => expr arguments left ∧ expr arguments right
  | .logical _ _ left right => expr arguments left ∧ expr arguments right
  | .unary _ _ operand => expr arguments operand
  | .conditional _ test yes no => expr arguments test ∧ expr arguments yes ∧ expr arguments no
  | .sequence _ items => exprs arguments items

def exprs (arguments : Bool) : List Expr → Prop
  | [] => True
  | first :: rest => expr arguments first ∧ exprs arguments rest

def exprOption (arguments : Bool) : Option Expr → Prop
  | none => True
  | some value => expr arguments value

def arrowBody (arguments : Bool) : ArrowBody → Prop
  | .block body => block (.inFunction arguments) body
  | .expr value => expr arguments value

def block (position : Position) : Block → Prop
  | .mk _ body => stmts position body

/-- A block fits that is not the body of a function. -/
def nested (position : Position) : Block → Prop
  | .mk _ body => diff.Plain body ∧ stmts position body

def nestedOption (position : Position) : Option Block → Prop
  | none => True
  | some body => nested position body

/-- Declarators fit. Those of block scoped variables may declare `arguments` anywhere. -/
def declarators (inBlock arguments : Bool) : List Declarator → Prop
  | [] => True
  | .mk _ x init :: rest =>
    x.Usable (inBlock || arguments) ∧ exprOption arguments init ∧ declarators inBlock arguments rest

def declaration (arguments : Bool) : Declaration → Prop
  | .mk _ kind items => diff.Allows kind ∧ declarators kind.isBlockScoped arguments items

def forInit (arguments : Bool) : Option ForInit → Prop
  | none => True
  | some (.declaration item) => declaration arguments item
  | some (.expr value) => expr arguments value

def handler (position : Position) : Option CatchClause → Prop
  | none => True
  | some (.mk _ param body) => param.Declarable ∧ nested position body

def cases (position : Position) : List Case → Prop
  | [] => True
  | .mk _ test body :: rest =>
    exprOption position.arguments test ∧ (diff.Plain body ∧ stmts position body) ∧
      cases position rest

/-- A statement fits. The body of a chosen loop can be moved and fits as a wrapped body. -/
def stmt (position : Position) : Stmt → Prop
  | .declaration item => declaration position.arguments item
  | .function _ name names body =>
    name.Declarable ∧ (∀ x ∈ names, x.Declarable) ∧ block (.inFunction true) body
  | .block body => nested position body
  | .expr _ value => expr position.arguments value
  | .empty _ => True
  | .ifElse _ test yes no =>
    expr position.arguments test ∧ stmt position yes ∧ stmtOption position no
  | .forLoop loc init test update body =>
    forInit position.arguments init ∧ exprOption position.arguments test ∧
      exprOption position.arguments update ∧
      stmt (if diff.chosen loc then .wrapped else position) body ∧
      (diff.chosen loc → diff.Moves body)
  | .forEach loc _ target subject body =>
    target.ident.Usable (target.blockIdent?.isSome || position.arguments) ∧
      (diff = .scoping → target.blockIdent? = none) ∧ expr position.arguments subject ∧
      stmt (if diff.chosen loc then .wrapped else position) body ∧
      (diff.chosen loc → diff.Moves body)
  | .whileLoop loc test body =>
    expr position.arguments test ∧
      stmt (if diff.chosen loc then .wrapped else position) body ∧
      (diff.chosen loc → diff.Moves body)
  | .doWhile loc body test =>
    stmt (if diff.chosen loc then .wrapped else position) body ∧
      (diff.chosen loc → diff.Moves body) ∧
      expr position.arguments test
  | .returns _ value => position.returns ∧ exprOption position.arguments value
  | .breaks _ _ => True
  | .continues _ _ => True
  | .throws _ value => expr position.arguments value
  | .tryCatch _ body clause finalizer =>
    nested position body ∧ handler position clause ∧ nestedOption position finalizer
  | .switch _ subject items => expr position.arguments subject ∧ cases position items
  | .labeled _ _ body => stmt position body

def stmtOption (position : Position) : Option Stmt → Prop
  | none => True
  | some body => stmt position body

def stmts (position : Position) : List Stmt → Prop
  | [] => True
  | first :: rest => stmt position first ∧ stmts position rest

end

end Fits

end LoopCapture
