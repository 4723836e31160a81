import LoopCapture.Lexicon

/-!
Concrete syntax trees.

A concrete tree has a constructor for each production that carries meaning, parentheses included.
Punctuation is left implicit. The place of a node reaches from its first to its last token.
-/

set_option autoImplicit false

namespace LoopCapture.Concrete

/-- Operators between two operands, below assignment. -/
inductive InfixOp where
  | logical (op : LogicalOp)
  | binary (op : BinaryOp)
  deriving DecidableEq, Repr

inductive Constant where
  | «true»
  | «false»
  | «null»
  | «this»
  deriving DecidableEq, Repr

mutual

inductive Expr where
  | name (ident : Ident)
  | number (loc : Loc) (text : String)
  | string (loc : Loc) (text : String)
  | constant (loc : Loc) (value : Constant)
  | array (loc : Loc) (items : List Expr)
  | function (loc : Loc) (params : List Ident) (body : Block)
  | group (loc : Loc) (inner : Expr)
  | arrow (loc : Loc) (head : ArrowHead) (body : ArrowBody)
  | sequence (loc : Loc) (left right : Expr)
  | assign (loc : Loc) (op : AssignOp) (target value : Expr)
  | conditional (loc : Loc) (test yes no : Expr)
  | operation (loc : Loc) (op : InfixOp) (left right : Expr)
  | unary (loc : Loc) (op : UnaryOp) (operand : Expr)
  | update (loc : Loc) (op : UpdateOp) (before : Bool) (operand : Expr)
  | call (loc : Loc) (callee : Expr) (args : List Expr)
  | member (loc : Loc) (object : Expr) (property : Ident)
  | index (loc : Loc) (object key : Expr)

/-- What stands before the arrow of an arrow function: empty parentheses, a name, or any expression
in parentheses. -/
inductive ArrowHead where
  | empty
  | name (ident : Ident)
  | group (inner : Expr)

inductive ArrowBody where
  | block (block : Block)
  | expr (value : Expr)

inductive Block where
  | mk (loc : Loc) (body : List Stmt)

inductive Declarator where
  | mk (loc : Loc) (ident : Ident) (init : Option Expr)

inductive Declaration where
  | mk (loc : Loc) (kind : DeclKind) (declarators : List Declarator)

inductive ForInit where
  | declaration (declaration : Declaration)
  | expr (value : Expr)

inductive CatchClause where
  | mk (loc : Loc) (param : Ident) (body : Block)

/-- A case of a `switch` statement; the default case has no test. -/
inductive Case where
  | mk (loc : Loc) (test : Option Expr) (body : List Stmt)

inductive Stmt where
  | declaration (loc : Loc) (declaration : Declaration)
  | function (loc : Loc) (name : Ident) (params : List Ident) (body : Block)
  | block (block : Block)
  | ifElse (loc : Loc) (test : Expr) (yes : Stmt) (no : Option Stmt)
  | forLoop (loc : Loc) (init : Option ForInit) (test update : Option Expr) (body : Stmt)
  | forEach (loc : Loc) (kind : EachKind) (target : ForTarget) (subject : Expr) (body : Stmt)
  | whileLoop (loc : Loc) (test : Expr) (body : Stmt)
  | doWhile (loc : Loc) (body : Stmt) (test : Expr)
  | returns (loc : Loc) (value : Option Expr)
  | breaks (loc : Loc) (label : Option Ident)
  | continues (loc : Loc) (label : Option Ident)
  | throws (loc : Loc) (value : Expr)
  | tryCatch (loc : Loc) (block : Block) (handler : Option CatchClause) (finalizer : Option Block)
  | switch (loc : Loc) (subject : Expr) (cases : List Case)
  | labeled (loc : Loc) (label : Ident) (body : Stmt)
  | expr (loc : Loc) (value : Expr)
  | empty (loc : Loc)

end

def Expr.loc : Expr → Loc
  | .name ident => ident.loc
  | .number loc _ => loc
  | .string loc _ => loc
  | .constant loc _ => loc
  | .array loc _ => loc
  | .function loc _ _ => loc
  | .group loc _ => loc
  | .arrow loc _ _ => loc
  | .sequence loc _ _ => loc
  | .assign loc _ _ _ => loc
  | .conditional loc _ _ _ => loc
  | .operation loc _ _ _ => loc
  | .unary loc _ _ => loc
  | .update loc _ _ _ => loc
  | .call loc _ _ => loc
  | .member loc _ _ => loc
  | .index loc _ _ => loc

def Block.loc : Block → Loc
  | .mk loc _ => loc

def ArrowBody.loc : ArrowBody → Loc
  | .block b => b.loc
  | .expr value => value.loc

def Declarator.loc : Declarator → Loc
  | .mk loc _ _ => loc

/-- The place of a declaration, without the semicolon after it. -/
def Declaration.loc : Declaration → Loc
  | .mk loc _ _ => loc

def CatchClause.loc : CatchClause → Loc
  | .mk loc _ _ => loc

def Stmt.loc : Stmt → Loc
  | .declaration loc _ => loc
  | .function loc _ _ _ => loc
  | .block b => b.loc
  | .ifElse loc _ _ _ => loc
  | .forLoop loc _ _ _ _ => loc
  | .forEach loc _ _ _ _ => loc
  | .whileLoop loc _ _ => loc
  | .doWhile loc _ _ => loc
  | .returns loc _ => loc
  | .breaks loc _ => loc
  | .continues loc _ => loc
  | .throws loc _ => loc
  | .tryCatch loc _ _ _ => loc
  | .switch loc _ _ => loc
  | .labeled loc _ _ => loc
  | .expr loc _ => loc
  | .empty loc => loc

end LoopCapture.Concrete
