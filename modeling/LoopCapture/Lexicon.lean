import LoopCapture.Source.Loc

/-!
The vocabulary that concrete and abstract programs share: identifiers, kinds of declarations and
operators.
-/

set_option autoImplicit false

namespace LoopCapture

structure Ident where
  name : String
  loc : Loc
  deriving DecidableEq, Repr

inductive DeclKind where
  | «var»
  | «let»
  | «const»
  deriving DecidableEq, Repr

namespace DeclKind

def text : DeclKind → String
  | .var => "var"
  | .let => "let"
  | .const => "const"

/-- Declarations that belong to the block around them. -/
def isBlockScoped : DeclKind → Bool
  | .var => false
  | .let => true
  | .const => true

end DeclKind

inductive ArithOp where
  | add
  | sub
  | mul
  | div
  | rem
  deriving DecidableEq, Repr

def ArithOp.text : ArithOp → String
  | .add => "+"
  | .sub => "-"
  | .mul => "*"
  | .div => "/"
  | .rem => "%"

inductive OrderOp where
  | less
  | lessEqual
  | greater
  | greaterEqual
  deriving DecidableEq, Repr

def OrderOp.text : OrderOp → String
  | .less => "<"
  | .lessEqual => "<="
  | .greater => ">"
  | .greaterEqual => ">="

inductive EqualOp where
  | strictEqual
  | strictUnequal
  | looseEqual
  | looseUnequal
  deriving DecidableEq, Repr

def EqualOp.text : EqualOp → String
  | .strictEqual => "==="
  | .strictUnequal => "!=="
  | .looseEqual => "=="
  | .looseUnequal => "!="

inductive BinaryOp where
  | arith (op : ArithOp)
  | order (op : OrderOp)
  | equal (op : EqualOp)
  deriving DecidableEq, Repr

namespace BinaryOp

def text : BinaryOp → String
  | .arith op => op.text
  | .order op => op.text
  | .equal op => op.text

def all : List BinaryOp := [
  .arith .add, .arith .sub, .arith .mul, .arith .div, .arith .rem,
  .order .less, .order .lessEqual, .order .greater, .order .greaterEqual,
  .equal .strictEqual, .equal .strictUnequal, .equal .looseEqual, .equal .looseUnequal]

def ofText? (spelling : String) : Option BinaryOp :=
  all.find? (·.text == spelling)

end BinaryOp

/-- Operators that evaluate the second operand only if needed. -/
inductive LogicalOp where
  | and
  | or
  deriving DecidableEq, Repr

def LogicalOp.text : LogicalOp → String
  | .and => "&&"
  | .or => "||"

/-- Assignment, plain or combined with an arithmetic operator. -/
inductive AssignOp where
  | plain
  | combined (op : ArithOp)
  deriving DecidableEq, Repr

def AssignOp.text : AssignOp → String
  | .plain => "="
  | .combined op => op.text ++ "="

inductive UnaryOp where
  | not
  | negate
  | plus
  | typeof
  deriving DecidableEq, Repr

def UnaryOp.text : UnaryOp → String
  | .not => "!"
  | .negate => "-"
  | .plus => "+"
  | .typeof => "typeof"

inductive UpdateOp where
  | increment
  | decrement
  deriving DecidableEq, Repr

def UpdateOp.text : UpdateOp → String
  | .increment => "++"
  | .decrement => "--"

/-- What a loop over a collection assigns: its keys or its values. -/
inductive EachKind where
  | keys
  | values
  deriving DecidableEq, Repr

/-- The left side of a loop over a collection: a fresh declaration, or a variable that exists. -/
inductive ForTarget where
  | declared (loc : Loc) (kind : DeclKind) (ident : Ident)
  | existing (ident : Ident)
  deriving DecidableEq, Repr

namespace ForTarget

def loc : ForTarget → Loc
  | .declared loc _ _ => loc
  | .existing ident => ident.loc

def ident : ForTarget → Ident
  | .declared _ _ ident => ident
  | .existing ident => ident

end ForTarget

end LoopCapture
