import LoopCapture.Concrete.Parser
import LoopCapture.Program.Basic
import LoopCapture.Program.StringLiteral
import LoopCapture.Text.Quoted
import LoopCapture.Token.Lexer

/-!
Programs from program texts.

A text is cut into tokens, the tokens are arranged by the grammar, and the concrete tree is
checked and turned into a program. Of the faults of a text the first one counts: characters and
tokens in the order of the text, and after that the checks in the order in which the tree is built.
-/

set_option autoImplicit false

namespace LoopCapture

inductive ParseError where
  | unexpectedCharacter (c : Char) (place : Cursor)
  | unexpectedToken (token : Token)
  /-- The text ends too early; the place is that of the last token. -/
  | unexpectedEnd (last : Loc)
  | duplicateParameter (name : Ident)
  | missingInitializer (name : String) (declarator : Loc)
  | invalidTarget (target : Loc)
  | invalidParameter (item : Loc)
  deriving DecidableEq, Repr

namespace ParseError

def message : ParseError → String
  | .unexpectedCharacter c _ => "unexpected character " ++ Text.quoted (String.singleton c)
  | .unexpectedToken token => "unexpected token " ++ Text.quoted token.text
  | .unexpectedEnd _ => "unexpected end of input"
  | .duplicateParameter name => s!"duplicate parameter name '{name.name}'"
  | .missingInitializer name _ => s!"missing initializer in const declaration of '{name}'"
  | .invalidTarget _ => "invalid assignment target"
  | .invalidParameter _ => "arrow function parameters must be plain identifiers"

/-- The place of an error. Faults of tokens and characters are points. -/
def loc : ParseError → Loc
  | .unexpectedCharacter _ place => place.rangeTo place
  | .unexpectedToken token => token.loc.atStart
  | .unexpectedEnd last => last.atStart
  | .duplicateParameter name => name.loc
  | .missingInitializer _ declarator => declarator
  | .invalidTarget target => target
  | .invalidParameter item => item

end ParseError

/-- A literal that the grammar accepts and that has no value. -/
inductive LiteralFault where
  | string (fault : StringFault)
  | number (fault : NumberFault)
  deriving DecidableEq, Repr

inductive BuildError where
  | parse (error : ParseError)
  | literal (fault : LiteralFault)
  deriving DecidableEq, Repr

abbrev Build := Except BuildError

namespace Build

def refuse {α : Type} (error : ParseError) : Build α :=
  .error (.parse error)

def number (text : String) : Build Literal :=
  match Number.ofNumeral text.toList with
  | .ok value => .ok (.number value)
  | .error fault => .error (.literal (.number fault))

def string (text : String) : Build Literal :=
  match StringLiteral.decode text.toList with
  | .ok value => .ok (.text value)
  | .error fault => .error (.literal (.string fault))

/-- Checks that parameters are distinct, given the names before them. -/
def distinct (seen : List String) : List Ident → Build Unit
  | [] => .ok ()
  | param :: rest =>
    if seen.contains param.name then refuse (.duplicateParameter param)
    else distinct (param.name :: seen) rest

def params (params : List Ident) : Build (List Ident) := do
  distinct [] params
  return params

/-- The place that an expression denotes, if it can be assigned to. -/
def target : Expr → Build Place
  | .place place => .ok place
  | other => refuse (.invalidTarget other.loc)

def plainNames : List Expr → Build (List Ident)
  | [] => .ok []
  | .place (.ident name) :: rest => do return name :: (← plainNames rest)
  | other :: _ => refuse (.invalidParameter other.loc)

/-- The parameters that an expression in parentheses before an arrow stands for. -/
def arrowParams : Expr → Build (List Ident)
  | .sequence _ items => plainNames items
  | other => plainNames [other]

def sequenceItems : Expr → List Expr
  | .sequence _ items => items
  | other => [other]

def constant (loc : Loc) : Concrete.Constant → Expr
  | .true => .literal loc (.bool true) "true"
  | .false => .literal loc (.bool false) "false"
  | .null => .literal loc .null "null"
  | .this => .this loc

def operation (loc : Loc) (op : Concrete.InfixOp) (left right : Expr) : Expr :=
  match op with
  | .logical op => .logical loc op left right
  | .binary op => .binary loc op left right

/-- A variable declared constant must have an initial value. -/
def initialized (kind : DeclKind) (loc : Loc) (name : String) (init : Option Expr) : Build Unit :=
  if kind = .const && init.isNone then refuse (.missingInitializer name loc) else .ok ()

mutual

/-- An expression. Parentheses leave no trace; the arguments of a call come before its callee, and
the target of an assignment is checked before the value is built. -/
def expr : Concrete.Expr → Build Expr
  | .name ident => .ok (.place (.ident ident))
  | .number loc text => do return .literal loc (← number text) text
  | .string loc text => do return .literal loc (← string text) text
  | .constant loc value => .ok (constant loc value)
  | .array loc items => do return .array loc (← exprs items)
  | .function loc names body => do
    let names ← params names
    return .function loc names (← block body)
  | .group _ inner => expr inner
  | .arrow loc head body => do
    let names ← params (← arrowHead head)
    return .arrow loc names (← arrowBody body)
  | .sequence loc left right => do
    let first ← expr left
    return .sequence loc (sequenceItems first ++ [← expr right])
  | .assign loc op left right => do
    let place ← target (← expr left)
    return .assign loc op place (← expr right)
  | .conditional loc test yes no => do
    let test ← expr test
    let yes ← expr yes
    return .conditional loc test yes (← expr no)
  | .operation loc op left right => do
    let left ← expr left
    return operation loc op left (← expr right)
  | .unary loc op operand => do return .unary loc op (← expr operand)
  | .update loc op before operand => do return .update loc op before (← target (← expr operand))
  | .call loc callee args => do
    let args ← exprs args
    return .call loc (← expr callee) args
  | .member loc object property => do return .place (.member loc (← expr object) property)
  | .index loc object key => do
    let object ← expr object
    return .place (.index loc object (← expr key))

def exprs : List Concrete.Expr → Build (List Expr)
  | [] => .ok []
  | first :: rest => do
    let first ← expr first
    return first :: (← exprs rest)

def exprOption : Option Concrete.Expr → Build (Option Expr)
  | none => .ok none
  | some value => do return some (← expr value)

def arrowHead : Concrete.ArrowHead → Build (List Ident)
  | .empty => .ok []
  | .name ident => .ok [ident]
  | .group inner => do arrowParams (← expr inner)

def arrowBody : Concrete.ArrowBody → Build ArrowBody
  | .block body => do return .block (← block body)
  | .expr value => do return .expr (← expr value)

def block : Concrete.Block → Build Block
  | .mk loc body => do return .mk loc (← stmts body)

def blockOption : Option Concrete.Block → Build (Option Block)
  | none => .ok none
  | some body => do return some (← block body)

def declarators (kind : DeclKind) : List Concrete.Declarator → Build (List Declarator)
  | [] => .ok []
  | .mk loc ident init :: rest => do
    let init ← exprOption init
    initialized kind loc ident.name init
    return .mk loc ident init :: (← declarators kind rest)

def declaration (loc : Loc) : Concrete.Declaration → Build Declaration
  | .mk _ kind items => do return .mk loc kind (← declarators kind items)

def forInit : Option Concrete.ForInit → Build (Option ForInit)
  | none => .ok none
  | some (.declaration item) => do return some (.declaration (← declaration item.loc item))
  | some (.expr value) => do return some (.expr (← expr value))

def handler : Option Concrete.CatchClause → Build (Option CatchClause)
  | none => .ok none
  | some (.mk loc param body) => do return some (.mk loc param (← block body))

def cases : List Concrete.Case → Build (List Case)
  | [] => .ok []
  | .mk loc test body :: rest => do
    let test ← exprOption test
    let body ← stmts body
    return .mk loc test body :: (← cases rest)

/-- A statement. The handler and the final block of a `try` statement come before its block. -/
def stmt : Concrete.Stmt → Build Stmt
  | .declaration loc item => do return .declaration (← declaration loc item)
  | .function loc name names body => do
    let names ← params names
    return .function loc name names (← block body)
  | .block body => do return .block (← block body)
  | .ifElse loc test yes no => do
    let test ← expr test
    let yes ← stmt yes
    return .ifElse loc test yes (← stmtOption no)
  | .forLoop loc init test update body => do
    let init ← forInit init
    let test ← exprOption test
    let update ← exprOption update
    return .forLoop loc init test update (← stmt body)
  | .forEach loc kind target subject body => do
    let subject ← expr subject
    return .forEach loc kind target subject (← stmt body)
  | .whileLoop loc test body => do
    let test ← expr test
    return .whileLoop loc test (← stmt body)
  | .doWhile loc body test => do
    let body ← stmt body
    return .doWhile loc body (← expr test)
  | .returns loc value => do return .returns loc (← exprOption value)
  | .breaks loc label => .ok (.breaks loc label)
  | .continues loc label => .ok (.continues loc label)
  | .throws loc value => do return .throws loc (← expr value)
  | .tryCatch loc body clause finalizer => do
    let clause ← handler clause
    let finalizer ← blockOption finalizer
    return .tryCatch loc (← block body) clause finalizer
  | .switch loc subject items => do
    let subject ← expr subject
    return .switch loc subject (← cases items)
  | .labeled loc label body => do return .labeled loc label (← stmt body)
  | .expr loc value => do return .expr loc (← expr value)
  | .empty loc => .ok (.empty loc)

def stmtOption : Option Concrete.Stmt → Build (Option Stmt)
  | none => .ok none
  | some body => do return some (← stmt body)

def stmts : List Concrete.Stmt → Build (List Stmt)
  | [] => .ok []
  | first :: rest => do
    let first ← stmt first
    return first :: (← stmts rest)

end

end Build

namespace Program

/-- The error of tokens that the grammar rejects. At the end of the tokens a stray character counts
before the end of the text. -/
def rejectionError (tokens : Tokens) : Concrete.Rejection → ParseError
  | .token token => .unexpectedToken token
  | _ =>
    match tokens.stray, tokens.tokens.getLast? with
    | some (c, place), _ => .unexpectedCharacter c place
    | none, some last => .unexpectedEnd last.loc
    | none, none => .unexpectedEnd ⟨1, 1, 0, 0⟩

/-- The concrete statements of a text. A stray character after a whole program is an error too. -/
def concrete (tokens : Tokens) : Except ParseError (List Concrete.Stmt) :=
  match Concrete.parse tokens.tokens, tokens.stray with
  | .error rejection, _ => .error (rejectionError tokens rejection)
  | .ok _, some (c, place) => .error (.unexpectedCharacter c place)
  | .ok statements, none => .ok statements

def ofText (source : List Char) : Build Program := do
  match concrete (Tokens.ofText source) with
  | .error error => Build.refuse error
  | .ok statements => return ⟨⟨1, 1, 0, source.length⟩, ← Build.stmts statements⟩

end Program

end LoopCapture
