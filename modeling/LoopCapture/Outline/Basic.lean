import LoopCapture.Outline.Tree
import LoopCapture.Program.Basic

/-!
Outlines: programs as trees of sites.

An outline forgets the values and operators of a program and keeps what scopes and jumps depend on.
Its nodes are numbered in pre-order, and every site knows the nodes above it.
-/

set_option autoImplicit false

namespace LoopCapture

inductive FunctionKind where
  | declaration
  | expression
  | arrow
  deriving DecidableEq, Repr

inductive LoopKind where
  | forLoop
  | forEach (kind : EachKind)
  | whileLoop
  | doWhile
  deriving DecidableEq, Repr

inductive Form where
  | program
  | identifier (name : String)
  | literal
  | this
  | array
  | function (kind : FunctionKind)
  | call
  | member
  | assignment
  | binary
  | logical
  | unary
  | update
  | conditional
  | sequence
  | declarator
  | declaration (kind : DeclKind)
  | block
  | expression
  | empty
  | ifElse
  | loop (kind : LoopKind)
  | returns
  | breaks (label : Option String)
  | continues (label : Option String)
  | throws
  | catchClause
  | tryCatch
  | case
  | switch
  | labeled (label : String)
  deriving DecidableEq, Repr

namespace Form

/-- The customary name of a form. -/
def typeName : Form → String
  | .program => "Program"
  | .identifier _ => "Identifier"
  | .literal => "Literal"
  | .this => "ThisExpression"
  | .array => "ArrayExpression"
  | .function .declaration => "FunctionDeclaration"
  | .function .expression => "FunctionExpression"
  | .function .arrow => "ArrowFunctionExpression"
  | .call => "CallExpression"
  | .member => "MemberExpression"
  | .assignment => "AssignmentExpression"
  | .binary => "BinaryExpression"
  | .logical => "LogicalExpression"
  | .unary => "UnaryExpression"
  | .update => "UpdateExpression"
  | .conditional => "ConditionalExpression"
  | .sequence => "SequenceExpression"
  | .declarator => "VariableDeclarator"
  | .declaration _ => "VariableDeclaration"
  | .block => "BlockStatement"
  | .expression => "ExpressionStatement"
  | .empty => "EmptyStatement"
  | .ifElse => "IfStatement"
  | .loop .forLoop => "ForStatement"
  | .loop (.forEach .keys) => "ForInStatement"
  | .loop (.forEach .values) => "ForOfStatement"
  | .loop .whileLoop => "WhileStatement"
  | .loop .doWhile => "DoWhileStatement"
  | .returns => "ReturnStatement"
  | .breaks _ => "BreakStatement"
  | .continues _ => "ContinueStatement"
  | .throws => "ThrowStatement"
  | .catchClause => "CatchClause"
  | .tryCatch => "TryStatement"
  | .case => "SwitchCase"
  | .switch => "SwitchStatement"
  | .labeled _ => "LabeledStatement"

def isFunction : Form → Bool
  | .function _ => true
  | _ => false

def isLoop : Form → Bool
  | .loop _ => true
  | _ => false

end Form

/-- The part that a node plays in the node above it, as far as names, functions and loops are
concerned. -/
inductive Slot where
  | plain
  | declared
  | functionName
  | parameter
  | caught
  /-- The name of a member. -/
  | property
  /-- A label, or the target of a jump. -/
  | label
  | functionBody
  | loopBody
  deriving DecidableEq, Repr

/-- A node before it has a number. -/
structure Label where
  slot : Slot
  form : Form
  loc : Loc
  deriving DecidableEq, Repr

structure Node extends Label where
  id : Nat
  deriving DecidableEq, Repr

namespace Node

def name? (node : Node) : Option String :=
  match node.form with
  | .identifier name => some name
  | _ => none

def isReference (node : Node) : Bool :=
  node.name?.isSome && node.slot == .plain

def isLoop (node : Node) : Bool := node.form.isLoop

def isFunction (node : Node) : Bool := node.form.isFunction

end Node

/-- A node with the nodes above it, the nearest one first. -/
structure Site where
  node : Node
  above : List Node
  deriving DecidableEq, Repr

namespace Site

def path (site : Site) : List Node := site.node :: site.above

/-- The nearest loop at or above a site, unless a function comes first. -/
def enclosingLoop? (site : Site) : Option Node :=
  (site.path.find? fun node => node.isFunction || node.isLoop).filter Node.isLoop

def loopDepth (site : Site) : Nat := site.above.countP Node.isLoop

end Site

abbrev Outline := Tree Site

namespace Outline

/-! ## Shape -/

def leaf (slot : Slot) (form : Form) (loc : Loc) : Tree Label := .node ⟨slot, form, loc⟩ []

def ident (slot : Slot) (x : Ident) : Tree Label := leaf slot (.identifier x.name) x.loc

def params (xs : List Ident) : List (Tree Label) := xs.map (ident .parameter)

def labelOption (x : Option Ident) : List (Tree Label) := (x.map (ident .label)).toList

def forTarget : ForTarget → Tree Label
  | .existing x => ident .plain x
  | .declared loc kind x =>
    .node ⟨.plain, .declaration kind, loc⟩ [.node ⟨.plain, .declarator, x.loc⟩ [ident .declared x]]

mutual

def place (slot : Slot) : Place → Tree Label
  | .ident x => ident slot x
  | .member loc object property =>
    .node ⟨slot, .member, loc⟩ [expr .plain object, ident .property property]
  | .index loc object key => .node ⟨slot, .member, loc⟩ [expr .plain object, expr .plain key]

def expr (slot : Slot) : Expr → Tree Label
  | .place target => place slot target
  | .literal loc _ _ => leaf slot .literal loc
  | .this loc => leaf slot .this loc
  | .array loc items => .node ⟨slot, .array, loc⟩ (exprs items)
  | .function loc names body =>
    .node ⟨slot, .function .expression, loc⟩ (params names ++ [block .functionBody body])
  | .arrow loc names body => .node ⟨slot, .function .arrow, loc⟩ (params names ++ [arrowBody body])
  | .call loc callee args => .node ⟨slot, .call, loc⟩ (expr .plain callee :: exprs args)
  | .assign loc _ target value =>
    .node ⟨slot, .assignment, loc⟩ [place .plain target, expr .plain value]
  | .update loc _ _ target => .node ⟨slot, .update, loc⟩ [place .plain target]
  | .binary loc _ left right => .node ⟨slot, .binary, loc⟩ [expr .plain left, expr .plain right]
  | .logical loc _ left right => .node ⟨slot, .logical, loc⟩ [expr .plain left, expr .plain right]
  | .unary loc _ operand => .node ⟨slot, .unary, loc⟩ [expr .plain operand]
  | .conditional loc test yes no =>
    .node ⟨slot, .conditional, loc⟩ [expr .plain test, expr .plain yes, expr .plain no]
  | .sequence loc items => .node ⟨slot, .sequence, loc⟩ (exprs items)

def exprs : List Expr → List (Tree Label)
  | [] => []
  | first :: rest => expr .plain first :: exprs rest

def exprOption : Option Expr → List (Tree Label)
  | none => []
  | some value => [expr .plain value]

def arrowBody : ArrowBody → Tree Label
  | .block body => block .functionBody body
  | .expr value => expr .plain value

def block (slot : Slot) : Block → Tree Label
  | .mk loc body => .node ⟨slot, .block, loc⟩ (stmts body)

def blockOption : Option Block → List (Tree Label)
  | none => []
  | some body => [block .plain body]

def declarators : List Declarator → List (Tree Label)
  | [] => []
  | .mk loc x init :: rest =>
    .node ⟨.plain, .declarator, loc⟩ (ident .declared x :: exprOption init) :: declarators rest

def declaration (slot : Slot) : Declaration → Tree Label
  | .mk loc kind items => .node ⟨slot, .declaration kind, loc⟩ (declarators items)

def forInit : Option ForInit → List (Tree Label)
  | none => []
  | some (.declaration item) => [declaration .plain item]
  | some (.expr value) => [expr .plain value]

def handler : Option CatchClause → List (Tree Label)
  | none => []
  | some (.mk loc param body) =>
    [.node ⟨.plain, .catchClause, loc⟩ [ident .caught param, block .plain body]]

def cases : List Case → List (Tree Label)
  | [] => []
  | .mk loc test body :: rest =>
    .node ⟨.plain, .case, loc⟩ (exprOption test ++ stmts body) :: cases rest

def stmt (slot : Slot) : Stmt → Tree Label
  | .declaration item => declaration slot item
  | .function loc name names body =>
    .node ⟨slot, .function .declaration, loc⟩
      (ident .functionName name :: (params names ++ [block .functionBody body]))
  | .block body => block slot body
  | .expr loc value => .node ⟨slot, .expression, loc⟩ [expr .plain value]
  | .empty loc => leaf slot .empty loc
  | .ifElse loc test yes no =>
    .node ⟨slot, .ifElse, loc⟩ (expr .plain test :: stmt .plain yes :: stmtOption no)
  | .forLoop loc init test update body =>
    .node ⟨slot, .loop .forLoop, loc⟩
      (forInit init ++ exprOption test ++ exprOption update ++ [stmt .loopBody body])
  | .forEach loc kind target subject body =>
    .node ⟨slot, .loop (.forEach kind), loc⟩
      [forTarget target, expr .plain subject, stmt .loopBody body]
  | .whileLoop loc test body =>
    .node ⟨slot, .loop .whileLoop, loc⟩ [expr .plain test, stmt .loopBody body]
  | .doWhile loc body test =>
    .node ⟨slot, .loop .doWhile, loc⟩ [stmt .loopBody body, expr .plain test]
  | .returns loc value => .node ⟨slot, .returns, loc⟩ (exprOption value)
  | .breaks loc label => .node ⟨slot, .breaks (label.map Ident.name), loc⟩ (labelOption label)
  | .continues loc label => .node ⟨slot, .continues (label.map Ident.name), loc⟩ (labelOption label)
  | .throws loc value => .node ⟨slot, .throws, loc⟩ [expr .plain value]
  | .tryCatch loc body clause finalizer =>
    .node ⟨slot, .tryCatch, loc⟩ (block .plain body :: (handler clause ++ blockOption finalizer))
  | .switch loc subject items => .node ⟨slot, .switch, loc⟩ (expr .plain subject :: cases items)
  | .labeled loc label body =>
    .node ⟨slot, .labeled label.name, loc⟩ [ident .label label, stmt .plain body]

def stmtOption : Option Stmt → List (Tree Label)
  | none => []
  | some body => [stmt .plain body]

def stmts : List Stmt → List (Tree Label)
  | [] => []
  | first :: rest => stmt .plain first :: stmts rest

end

def shape (program : Program) : Tree Label :=
  .node ⟨.plain, .program, program.loc⟩ (stmts program.body)

/-! ## Sites -/

mutual

/-- Numbers a tree from the given number on, under the given nodes. The next free number is given
too. -/
def number (above : List Node) (next : Nat) : Tree Label → Outline × Nat
  | .node label children =>
    let node : Node := { label with id := next }
    let (children, free) := numberAll (node :: above) (next + 1) children
    (.node ⟨node, above⟩ children, free)

def numberAll (above : List Node) (next : Nat) : List (Tree Label) → List Outline × Nat
  | [] => ([], next)
  | tree :: rest =>
    let (first, free) := number above next tree
    let (others, free) := numberAll above free rest
    (first :: others, free)

end

end Outline

def Outline.ofProgram (program : Program) : Outline :=
  (Outline.number [] 0 (Outline.shape program)).1

namespace Outline

def sites (outline : Outline) : List Site := outline.preorder

def subtree? (outline : Outline) (id : Nat) : Option Outline :=
  outline.find? (·.node.id == id)

def loopBody? (loop : Outline) : Option Outline :=
  loop.children.find? (·.label.node.slot == .loopBody)

def declaredIdents (declaration : Outline) : List Site :=
  declaration.children.filterMap fun declarator =>
    (declarator.children.find? (·.label.node.slot == .declared)).map Tree.label

/-- The declaration of block scoped variables in the header of a loop. -/
def blockScopedHeader? (loop : Outline) : Option Outline :=
  loop.children.find? fun child =>
    child.label.node.slot == .plain &&
      match child.label.node.form with
      | .declaration kind => kind.isBlockScoped
      | _ => false

/-- The block scoped variable that a loop over a collection assigns. -/
def iterationVariable? (loop : Outline) : Option Site :=
  match loop.label.node.form with
  | .loop (.forEach _) => (blockScopedHeader? loop).bind fun header => (declaredIdents header).head?
  | _ => none

end Outline

end LoopCapture
