import LoopCapture.Machine.Statement

/-!
# Targets of jumps

A program is well targeted if every jump in it has somewhere to go within its function: a `return`
needs the function, a jump without label needs a loop, or a `switch` for a `break`, and a jump with a
label needs that label around it, attached to a loop for a `continue`.
-/

set_option autoImplicit false

namespace LoopCapture

/-- What the jumps at some point of a program may lead to. -/
structure Targets where
  /-- Whether there is a function around. -/
  inFunction : Bool
  /-- Whether there is a loop or a `switch` around, within the function. -/
  inBreakable : Bool
  /-- Whether there is a loop around, within the function. -/
  inLoop : Bool
  /-- The labels around, within the function. -/
  labels : List String
  /-- The labels that are attached to loops around, within the function. -/
  loopLabels : List String

namespace Targets

def program : Targets := ⟨false, false, false, [], []⟩

/-- At the start of a function there is nothing but the function. -/
def function : Targets := ⟨true, false, false, [], []⟩

def loop (targets : Targets) (own : List String) : Targets :=
  { targets with inBreakable := true, inLoop := true, loopLabels := own ++ targets.loopLabels }

def switch (targets : Targets) : Targets :=
  { targets with inBreakable := true }

def label (targets : Targets) (name : String) : Targets :=
  { targets with labels := name :: targets.labels }

/-- A `break` has a target. -/
def Breaks (targets : Targets) : Option String → Prop
  | none => targets.inBreakable = true
  | some name => name ∈ targets.labels

/-- A `continue` has a target. -/
def Continues (targets : Targets) : Option String → Prop
  | none => targets.inLoop = true
  | some name => name ∈ targets.loopLabels

end Targets

mutual

def Place.WellTargeted : Place → Prop
  | .ident _ => True
  | .member _ object _ => object.WellTargeted
  | .index _ object key => object.WellTargeted ∧ key.WellTargeted

def Expr.WellTargeted : Expr → Prop
  | .place place => place.WellTargeted
  | .literal _ _ _ => True
  | .this _ => True
  | .array _ items => exprsWellTargeted items
  | .function _ _ body => body.WellTargeted .function
  | .arrow _ _ body => body.WellTargeted
  | .call _ callee args => callee.WellTargeted ∧ exprsWellTargeted args
  | .assign _ _ target value => target.WellTargeted ∧ value.WellTargeted
  | .update _ _ _ target => target.WellTargeted
  | .binary _ _ left right => left.WellTargeted ∧ right.WellTargeted
  | .logical _ _ left right => left.WellTargeted ∧ right.WellTargeted
  | .unary _ _ operand => operand.WellTargeted
  | .conditional _ test yes no => test.WellTargeted ∧ yes.WellTargeted ∧ no.WellTargeted
  | .sequence _ items => exprsWellTargeted items

def exprsWellTargeted : List Expr → Prop
  | [] => True
  | first :: rest => first.WellTargeted ∧ exprsWellTargeted rest

def exprOptionWellTargeted : Option Expr → Prop
  | none => True
  | some value => value.WellTargeted

def ArrowBody.WellTargeted : ArrowBody → Prop
  | .block body => body.WellTargeted .function
  | .expr value => value.WellTargeted

def Block.WellTargeted (targets : Targets) : Block → Prop
  | .mk _ body => stmtsWellTargeted targets body

def declaratorsWellTargeted : List Declarator → Prop
  | [] => True
  | .mk _ _ init :: rest => exprOptionWellTargeted init ∧ declaratorsWellTargeted rest

def Declaration.WellTargeted : Declaration → Prop
  | .mk _ _ declarators => declaratorsWellTargeted declarators

def forInitWellTargeted : Option ForInit → Prop
  | none => True
  | some (.declaration item) => item.WellTargeted
  | some (.expr value) => value.WellTargeted

def handlerWellTargeted (targets : Targets) : Option CatchClause → Prop
  | none => True
  | some (.mk _ _ body) => body.WellTargeted targets

def blockOptionWellTargeted (targets : Targets) : Option Block → Prop
  | none => True
  | some body => body.WellTargeted targets

def casesWellTargeted (targets : Targets) : List Case → Prop
  | [] => True
  | .mk _ test body :: rest =>
    exprOptionWellTargeted test ∧ stmtsWellTargeted targets body ∧ casesWellTargeted targets rest

def Stmt.WellTargeted (targets : Targets) (own : List String) : Stmt → Prop
  | .declaration item => item.WellTargeted
  | .function _ _ _ body => body.WellTargeted .function
  | .block body => body.WellTargeted targets
  | .expr _ value => value.WellTargeted
  | .empty _ => True
  | .ifElse _ test yes no =>
    test.WellTargeted ∧ yes.WellTargeted targets [] ∧ stmtOptionWellTargeted targets no
  | .forLoop _ init test update body =>
    forInitWellTargeted init ∧ exprOptionWellTargeted test ∧ exprOptionWellTargeted update ∧
      body.WellTargeted (targets.loop own) []
  | .forEach _ _ _ subject body =>
    subject.WellTargeted ∧ body.WellTargeted (targets.loop own) []
  | .whileLoop _ test body => test.WellTargeted ∧ body.WellTargeted (targets.loop own) []
  | .doWhile _ body test => body.WellTargeted (targets.loop own) [] ∧ test.WellTargeted
  | .returns _ value => targets.inFunction = true ∧ exprOptionWellTargeted value
  | .breaks _ label => targets.Breaks (label.map Ident.name)
  | .continues _ label => targets.Continues (label.map Ident.name)
  | .throws _ value => value.WellTargeted
  | .tryCatch _ body handler finalizer =>
    body.WellTargeted targets ∧ handlerWellTargeted targets handler ∧
      blockOptionWellTargeted targets finalizer
  | .switch _ subject cases => subject.WellTargeted ∧ casesWellTargeted targets.switch cases
  | .labeled _ name body => body.WellTargeted (targets.label name.name) (own ++ [name.name])

def stmtOptionWellTargeted (targets : Targets) : Option Stmt → Prop
  | none => True
  | some body => body.WellTargeted targets []

def stmtsWellTargeted (targets : Targets) : List Stmt → Prop
  | [] => True
  | first :: rest => first.WellTargeted targets [] ∧ stmtsWellTargeted targets rest

end

/-- Every jump of a program has a target. -/
def Program.WellTargeted (program : Program) : Prop :=
  stmtsWellTargeted .program program.body

/-! ## Checking targets

One check for each sort of syntax, by its own recursion. -/

instance (targets : Targets) (label : Option String) : Decidable (targets.Breaks label) :=
  match label with
  | none => inferInstanceAs (Decidable (targets.inBreakable = true))
  | some name => inferInstanceAs (Decidable (name ∈ targets.labels))

instance (targets : Targets) (label : Option String) : Decidable (targets.Continues label) :=
  match label with
  | none => inferInstanceAs (Decidable (targets.inLoop = true))
  | some name => inferInstanceAs (Decidable (name ∈ targets.loopLabels))

mutual

def Place.checkTargets : (place : Place) → Decidable place.WellTargeted
  | .ident _ => .isTrue trivial
  | .member _ object _ => object.checkTargets
  | .index _ object key => @instDecidableAnd _ _ object.checkTargets key.checkTargets

def Expr.checkTargets : (expr : Expr) → Decidable expr.WellTargeted
  | .place place => place.checkTargets
  | .literal _ _ _ => .isTrue trivial
  | .this _ => .isTrue trivial
  | .array _ items => checkExprs items
  | .function _ _ body => body.checkTargets .function
  | .arrow _ _ body => body.checkTargets
  | .call _ callee args => @instDecidableAnd _ _ callee.checkTargets (checkExprs args)
  | .assign _ _ target value => @instDecidableAnd _ _ target.checkTargets value.checkTargets
  | .update _ _ _ target => target.checkTargets
  | .binary _ _ left right => @instDecidableAnd _ _ left.checkTargets right.checkTargets
  | .logical _ _ left right => @instDecidableAnd _ _ left.checkTargets right.checkTargets
  | .unary _ _ operand => operand.checkTargets
  | .conditional _ test yes no =>
    @instDecidableAnd _ _ test.checkTargets (@instDecidableAnd _ _ yes.checkTargets no.checkTargets)
  | .sequence _ items => checkExprs items

def checkExprs : (items : List Expr) → Decidable (exprsWellTargeted items)
  | [] => .isTrue trivial
  | first :: rest => @instDecidableAnd _ _ first.checkTargets (checkExprs rest)

def checkExprOption : (value : Option Expr) → Decidable (exprOptionWellTargeted value)
  | none => .isTrue trivial
  | some value => value.checkTargets

def ArrowBody.checkTargets : (body : ArrowBody) → Decidable body.WellTargeted
  | .block body => body.checkTargets .function
  | .expr value => value.checkTargets

def Block.checkTargets (targets : Targets) : (block : Block) → Decidable (block.WellTargeted targets)
  | .mk _ body => checkStmts targets body

def checkDeclarators : (declarators : List Declarator) →
    Decidable (declaratorsWellTargeted declarators)
  | [] => .isTrue trivial
  | .mk _ _ init :: rest => @instDecidableAnd _ _ (checkExprOption init) (checkDeclarators rest)

def Declaration.checkTargets : (declaration : Declaration) → Decidable declaration.WellTargeted
  | .mk _ _ declarators => checkDeclarators declarators

def checkForInit : (init : Option ForInit) → Decidable (forInitWellTargeted init)
  | none => .isTrue trivial
  | some (.declaration item) => item.checkTargets
  | some (.expr value) => value.checkTargets

def checkHandler (targets : Targets) :
    (handler : Option CatchClause) → Decidable (handlerWellTargeted targets handler)
  | none => .isTrue trivial
  | some (.mk _ _ body) => body.checkTargets targets

def checkBlockOption (targets : Targets) :
    (block : Option Block) → Decidable (blockOptionWellTargeted targets block)
  | none => .isTrue trivial
  | some body => body.checkTargets targets

def checkCases (targets : Targets) :
    (cases : List Case) → Decidable (casesWellTargeted targets cases)
  | [] => .isTrue trivial
  | .mk _ test body :: rest =>
    @instDecidableAnd _ _ (checkExprOption test)
      (@instDecidableAnd _ _ (checkStmts targets body) (checkCases targets rest))

def Stmt.checkTargets (targets : Targets) (own : List String) :
    (stmt : Stmt) → Decidable (stmt.WellTargeted targets own)
  | .declaration item => item.checkTargets
  | .function _ _ _ body => body.checkTargets .function
  | .block body => body.checkTargets targets
  | .expr _ value => value.checkTargets
  | .empty _ => .isTrue trivial
  | .ifElse _ test yes no =>
    @instDecidableAnd _ _ test.checkTargets
      (@instDecidableAnd _ _ (yes.checkTargets targets []) (checkStmtOption targets no))
  | .forLoop _ init test update body =>
    @instDecidableAnd _ _ (checkForInit init)
      (@instDecidableAnd _ _ (checkExprOption test)
        (@instDecidableAnd _ _ (checkExprOption update) (body.checkTargets (targets.loop own) [])))
  | .forEach _ _ _ subject body =>
    @instDecidableAnd _ _ subject.checkTargets (body.checkTargets (targets.loop own) [])
  | .whileLoop _ test body =>
    @instDecidableAnd _ _ test.checkTargets (body.checkTargets (targets.loop own) [])
  | .doWhile _ body test =>
    @instDecidableAnd _ _ (body.checkTargets (targets.loop own) []) test.checkTargets
  | .returns _ value =>
    @instDecidableAnd _ _ (inferInstanceAs (Decidable (targets.inFunction = true)))
      (checkExprOption value)
  | .breaks _ label => inferInstanceAs (Decidable (targets.Breaks (label.map Ident.name)))
  | .continues _ label => inferInstanceAs (Decidable (targets.Continues (label.map Ident.name)))
  | .throws _ value => value.checkTargets
  | .tryCatch _ body handler finalizer =>
    @instDecidableAnd _ _ (body.checkTargets targets)
      (@instDecidableAnd _ _ (checkHandler targets handler) (checkBlockOption targets finalizer))
  | .switch _ subject cases =>
    @instDecidableAnd _ _ subject.checkTargets (checkCases targets.switch cases)
  | .labeled _ name body => body.checkTargets (targets.label name.name) (own ++ [name.name])

def checkStmtOption (targets : Targets) :
    (stmt : Option Stmt) → Decidable (stmtOptionWellTargeted targets stmt)
  | none => .isTrue trivial
  | some body => body.checkTargets targets []

def checkStmts (targets : Targets) :
    (body : List Stmt) → Decidable (stmtsWellTargeted targets body)
  | [] => .isTrue trivial
  | first :: rest => @instDecidableAnd _ _ (first.checkTargets targets []) (checkStmts targets rest)

end

instance (program : Program) : Decidable program.WellTargeted := checkStmts .program program.body

/-! ## Lists of expressions, statements and cases -/

theorem exprsWellTargeted_iff {items : List Expr} :
    exprsWellTargeted items ↔ ∀ value ∈ items, value.WellTargeted := by
  induction items with
  | nil => simp [exprsWellTargeted]
  | cons first rest ih => simp [exprsWellTargeted, ih]

theorem stmtsWellTargeted_iff {targets : Targets} {body : List Stmt} :
    stmtsWellTargeted targets body ↔ ∀ stmt ∈ body, stmt.WellTargeted targets [] := by
  induction body with
  | nil => simp [stmtsWellTargeted]
  | cons first rest ih => simp [stmtsWellTargeted, ih]

theorem stmtsWellTargeted_cases {targets : Targets} {cases : List Case}
    (targeted : casesWellTargeted targets cases) :
    stmtsWellTargeted targets (cases.flatMap Case.body) := by
  induction cases with
  | nil => trivial
  | cons first rest ih =>
      obtain ⟨loc, test, body⟩ := first
      obtain ⟨-, bodyTargeted, restTargeted⟩ := targeted
      have others := stmtsWellTargeted_iff.mp (ih restTargeted)
      refine stmtsWellTargeted_iff.mpr fun stmt member => ?_
      obtain inBody | inRest := List.mem_append.mp member
      · exact stmtsWellTargeted_iff.mp bodyTargeted stmt inBody
      · exact others stmt inRest

theorem casesWellTargeted_suffix {targets : Targets} {some all : List Case}
    (suffix : some <:+ all) (targeted : casesWellTargeted targets all) :
    casesWellTargeted targets some := by
  obtain ⟨before, rfl⟩ := suffix
  induction before with
  | nil => exact targeted
  | cons first rest ih =>
      obtain ⟨loc, test, body⟩ := first
      exact ih targeted.2.2

/-- The labels that a statement is run with are those attached to it, where they matter. -/
theorem Stmt.wellTargeted_labelsUnder {targets : Targets} {own : List String} {name : Ident}
    {body : Stmt} (targeted : body.WellTargeted targets (own ++ [name.name])) :
    body.WellTargeted targets (Exec.labelsUnder own name body) := by
  cases body <;> exact targeted

end LoopCapture
