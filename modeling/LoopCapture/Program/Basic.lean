import LoopCapture.Lexicon
import LoopCapture.Number.Basic

/-!
Programs as abstract syntax trees.

Parentheses are gone, literals have values, the targets of assignments are places, and the
parameters of functions are distinct names. The place of a node is the place of its own tokens;
parentheses around an expression belong to the node around it.
-/

set_option autoImplicit false

namespace LoopCapture

inductive Literal where
  | null
  | bool (value : Bool)
  | number (value : Number)
  | text (value : String)

mutual

inductive Place where
  | ident (ident : Ident)
  | member (loc : Loc) (object : Expr) (property : Ident)
  | index (loc : Loc) (object key : Expr)

/-- Expressions. A literal keeps its spelling. -/
inductive Expr where
  | place (place : Place)
  | literal (loc : Loc) (value : Literal) (spelling : String)
  | this (loc : Loc)
  | array (loc : Loc) (items : List Expr)
  | function (loc : Loc) (params : List Ident) (body : Block)
  | arrow (loc : Loc) (params : List Ident) (body : ArrowBody)
  | call (loc : Loc) (callee : Expr) (args : List Expr)
  | assign (loc : Loc) (op : AssignOp) (target : Place) (value : Expr)
  | update (loc : Loc) (op : UpdateOp) (before : Bool) (target : Place)
  | binary (loc : Loc) (op : BinaryOp) (left right : Expr)
  | logical (loc : Loc) (op : LogicalOp) (left right : Expr)
  | unary (loc : Loc) (op : UnaryOp) (operand : Expr)
  | conditional (loc : Loc) (test yes no : Expr)
  | sequence (loc : Loc) (items : List Expr)

inductive ArrowBody where
  | block (block : Block)
  | expr (value : Expr)

inductive Block where
  | mk (loc : Loc) (body : List Stmt)

inductive Declarator where
  | mk (loc : Loc) (ident : Ident) (init : Option Expr)

inductive Declaration where
  | mk (loc : Loc) (kind : DeclKind) (declarators : List Declarator)

inductive ForInit where
  | declaration (declaration : Declaration)
  | expr (value : Expr)

inductive CatchClause where
  | mk (loc : Loc) (param : Ident) (body : Block)

inductive Case where
  | mk (loc : Loc) (test : Option Expr) (body : List Stmt)

inductive Stmt where
  | declaration (declaration : Declaration)
  | function (loc : Loc) (name : Ident) (params : List Ident) (body : Block)
  | block (block : Block)
  | expr (loc : Loc) (value : Expr)
  | empty (loc : Loc)
  | ifElse (loc : Loc) (test : Expr) (yes : Stmt) (no : Option Stmt)
  | forLoop (loc : Loc) (init : Option ForInit) (test update : Option Expr) (body : Stmt)
  | forEach (loc : Loc) (kind : EachKind) (target : ForTarget) (subject : Expr) (body : Stmt)
  | whileLoop (loc : Loc) (test : Expr) (body : Stmt)
  | doWhile (loc : Loc) (body : Stmt) (test : Expr)
  | returns (loc : Loc) (value : Option Expr)
  | breaks (loc : Loc) (label : Option Ident)
  | continues (loc : Loc) (label : Option Ident)
  | throws (loc : Loc) (value : Expr)
  | tryCatch (loc : Loc) (block : Block) (handler : Option CatchClause) (finalizer : Option Block)
  | switch (loc : Loc) (subject : Expr) (cases : List Case)
  | labeled (loc : Loc) (label : Ident) (body : Stmt)

end

/-- A program: its statements, and the place of its whole text. -/
structure Program where
  loc : Loc
  body : List Stmt

def Place.loc : Place → Loc
  | .ident x => x.loc
  | .member loc _ _ => loc
  | .index loc _ _ => loc

def Expr.loc : Expr → Loc
  | .place p => p.loc
  | .literal loc _ _ => loc
  | .this loc => loc
  | .array loc _ => loc
  | .function loc _ _ => loc
  | .arrow loc _ _ => loc
  | .call loc _ _ => loc
  | .assign loc _ _ _ => loc
  | .update loc _ _ _ => loc
  | .binary loc _ _ _ => loc
  | .logical loc _ _ _ => loc
  | .unary loc _ _ => loc
  | .conditional loc _ _ _ => loc
  | .sequence loc _ => loc

def Block.loc : Block → Loc
  | .mk loc _ => loc

def Block.body : Block → List Stmt
  | .mk _ body => body

def Declarator.ident : Declarator → Ident
  | .mk _ ident _ => ident

def Declarator.init : Declarator → Option Expr
  | .mk _ _ init => init

def Declaration.loc : Declaration → Loc
  | .mk loc _ _ => loc

def Declaration.kind : Declaration → DeclKind
  | .mk _ kind _ => kind

def Declaration.declarators : Declaration → List Declarator
  | .mk _ _ declarators => declarators

def Declaration.names (declaration : Declaration) : List String :=
  declaration.declarators.map (·.ident.name)

def CatchClause.param : CatchClause → Ident
  | .mk _ param _ => param

def CatchClause.body : CatchClause → Block
  | .mk _ _ body => body

def Case.test : Case → Option Expr
  | .mk _ test _ => test

def Case.body : Case → List Stmt
  | .mk _ _ body => body

def Stmt.isLoop : Stmt → Bool
  | .forLoop .. => true
  | .forEach .. => true
  | .whileLoop .. => true
  | .doWhile .. => true
  | _ => false

end LoopCapture
