import LoopCapture.Concrete.Basic
import LoopCapture.Token.Basic

/-!
The grammar of programs as a recursive descent over tokens.

Every rule decides by the next token, or by the next two, how to go on, and takes a token only
where the grammar allows it after the tokens before. So a rejected program is rejected at the first
token that no program has at that place.

The rules call each other through a parameter that parses any goal of the grammar. `parseGoal`
closes the circle with a bound on the depth of calls.
-/

set_option autoImplicit false

namespace LoopCapture.Concrete

/-- Why a sequence of tokens is no program: a token that cannot stand where it stands, or an end
that comes too early. -/
inductive Rejection where
  | token (token : Token)
  | atEnd
  /-- The bound on the depth of calls was too small. -/
  | depth
  deriving DecidableEq, Repr

/-- A parser takes tokens from the front of the remaining ones. -/
abbrev Parser := StateT (List Token) (Except Rejection)

namespace Parser

def reject {α : Type} : Parser α := do
  match ← get with
  | [] => throw .atEnd
  | token :: _ => throw (.token token)

def peek? : Parser (Option Terminal) := do
  return (← get).head?.map Token.terminal

def peekSecond? : Parser (Option Terminal) := do
  return (← get).tail.head?.map Token.terminal

/-- Takes the next token if it has a value, which is then the result together with its place. -/
def take? {α : Type} (value : Terminal → Option α) : Parser (Option (α × Loc)) := do
  match ← get with
  | [] => return none
  | token :: rest =>
    match value token.terminal with
    | none => return none
    | some a =>
      set rest
      return some (a, token.loc)

def take {α : Type} (value : Terminal → Option α) : Parser (α × Loc) := do
  match ← take? value with
  | some found => return found
  | none => reject

def only (terminal other : Terminal) : Option Unit :=
  if other = terminal then some () else none

def mark (m : Mark) : Parser Loc := do
  return (← take (only (.mark m))).2

def mark? (m : Mark) : Parser Bool := do
  return (← take? (only (.mark m))).isSome

def keyword (word : Keyword) : Parser Loc := do
  return (← take (only (.keyword word))).2

def keyword? (word : Keyword) : Parser Bool := do
  return (← take? (only (.keyword word))).isSome

def atMark (m : Mark) : Parser Bool := do
  return (← peek?) == some (.mark m)

def nameText : Terminal → Option String
  | .name text => some text
  | _ => none

def ident : Parser Ident := do
  let (name, loc) ← take nameText
  return ⟨name, loc⟩

def ident? : Parser (Option Ident) := do
  return (← take? nameText).map fun (name, loc) => ⟨name, loc⟩

end Parser

/-! ## Operators of the levels -/

abbrev Level := Terminal → Option InfixOp

def orLevel : Level
  | .mark .or => some (.logical .or)
  | _ => none

def andLevel : Level
  | .mark .and => some (.logical .and)
  | _ => none

def equalLevel : Level
  | .mark .strictEqual => some (.binary (.equal .strictEqual))
  | .mark .strictUnequal => some (.binary (.equal .strictUnequal))
  | .mark .looseEqual => some (.binary (.equal .looseEqual))
  | .mark .looseUnequal => some (.binary (.equal .looseUnequal))
  | _ => none

def orderLevel : Level
  | .mark .less => some (.binary (.order .less))
  | .mark .lessEqual => some (.binary (.order .lessEqual))
  | .mark .greater => some (.binary (.order .greater))
  | .mark .greaterEqual => some (.binary (.order .greaterEqual))
  | _ => none

def sumLevel : Level
  | .mark .plus => some (.binary (.arith .add))
  | .mark .minus => some (.binary (.arith .sub))
  | _ => none

def productLevel : Level
  | .mark .times => some (.binary (.arith .mul))
  | .mark .over => some (.binary (.arith .div))
  | .mark .percent => some (.binary (.arith .rem))
  | _ => none

/-- The levels of precedence, from the loosest to the tightest. -/
def levels : List Level :=
  [orLevel, andLevel, equalLevel, orderLevel, sumLevel, productLevel]

def assignOp : Terminal → Option AssignOp
  | .mark .assign => some .plain
  | .mark .addAssign => some (.combined .add)
  | .mark .subAssign => some (.combined .sub)
  | .mark .mulAssign => some (.combined .mul)
  | .mark .divAssign => some (.combined .div)
  | .mark .remAssign => some (.combined .rem)
  | _ => none

def unaryOp : Terminal → Option UnaryOp
  | .mark .bang => some .not
  | .mark .minus => some .negate
  | .mark .plus => some .plus
  | .keyword .typeof => some .typeof
  | _ => none

def updateOp : Terminal → Option UpdateOp
  | .mark .increment => some .increment
  | .mark .decrement => some .decrement
  | _ => none

def declKind : Terminal → Option DeclKind
  | .keyword .var => some .var
  | .keyword .let => some .let
  | .keyword .const => some .const
  | _ => none

def constant : Terminal → Option Constant
  | .keyword .true => some .true
  | .keyword .false => some .false
  | .keyword .null => some .null
  | .keyword .this => some .this
  | _ => none

/-! ## Goals -/

/-- What ends a list of statements: the end of the program, a closing brace, or one of a closing
brace and the next case of a `switch`. -/
inductive ListEnd where
  | program
  | block
  | case
  deriving DecidableEq, Repr

def ListEnd.stops : ListEnd → Option Terminal → Bool
  | .program, next => next.isNone
  | .block, next => next == some (.mark .closeBrace)
  | .case, next =>
    next == some (.mark .closeBrace) || next == some (.keyword .case)
      || next == some (.keyword .default)

/-- The recursive parts of the grammar. A tail goes on with what has been read already. -/
inductive Goal where
  | expr
  /-- The further items of an expression with commas. -/
  | exprTail (left : Expr)
  | assignExpr
  | exprList
  /-- The further operands of a level; the tighter levels are given too. -/
  | levelTail (level : Level) (tighter : List Level) (left : Expr)
  /-- An operand with unary operators. -/
  | unary
  /-- The further calls and member accesses of an expression. -/
  | callTail (callee : Expr)
  | names
  | declarators
  | block
  | statement
  | statements (until_ : ListEnd)
  | cases

abbrev Goal.Tree : Goal → Type
  | .expr => Expr
  | .exprTail _ => Expr
  | .assignExpr => Expr
  | .exprList => List Expr
  | .levelTail _ _ _ => Expr
  | .unary => Expr
  | .callTail _ => Expr
  | .names => List Ident
  | .declarators => List Declarator
  | .block => Block
  | .statement => Stmt
  | .statements _ => List Stmt
  | .cases => List Case

abbrev Grammar := (goal : Goal) → Parser goal.Tree

open LoopCapture.Concrete.Parser

/-! ## Expressions -/

def exprRule (grammar : Grammar) : Parser Expr := do
  grammar (.exprTail (← grammar .assignExpr))

def exprTailRule (grammar : Grammar) (left : Expr) : Parser Expr := do
  if ← mark? .comma then
    let right ← grammar .assignExpr
    grammar (.exprTail (.sequence (left.loc.upTo right.loc) left right))
  else return left

def exprListRule (grammar : Grammar) : Parser (List Expr) := do
  let first ← grammar .assignExpr
  if ← mark? .comma then return first :: (← grammar .exprList)
  else return [first]

/-- Expressions between commas, possibly none, and the mark that closes them. -/
def exprsUpTo (grammar : Grammar) (close : Mark) : Parser (List Expr × Loc) := do
  if ← atMark close then return ([], ← mark close)
  else
    let items ← grammar .exprList
    return (items, ← mark close)

def paramsRule (grammar : Grammar) : Parser (List Ident) := do
  let _ ← mark .openParen
  let params ← if ← atMark .closeParen then pure [] else grammar .names
  let _ ← mark .closeParen
  return params

def primaryRule (grammar : Grammar) : Parser Expr := do
  match ← get with
  | ⟨.name text, loc⟩ :: rest =>
    set rest
    return .name ⟨text, loc⟩
  | ⟨.number text, loc⟩ :: rest =>
    set rest
    return .number loc text
  | ⟨.string text, loc⟩ :: rest =>
    set rest
    return .string loc text
  | ⟨.mark .openBracket, start⟩ :: rest =>
    set rest
    let (items, stop) ← exprsUpTo grammar .closeBracket
    return .array (start.upTo stop) items
  | ⟨.mark .openParen, start⟩ :: rest =>
    set rest
    let inner ← grammar .expr
    let stop ← mark .closeParen
    return .group (start.upTo stop) inner
  | ⟨.keyword .function, start⟩ :: rest =>
    set rest
    let params ← paramsRule grammar
    let body ← grammar .block
    return .function (start.upTo body.loc) params body
  | _ =>
    let (value, loc) ← take constant
    return .constant loc value

def callTailRule (grammar : Grammar) (callee : Expr) : Parser Expr := do
  if ← mark? .openParen then
    let (args, stop) ← exprsUpTo grammar .closeParen
    grammar (.callTail (.call (callee.loc.upTo stop) callee args))
  else if ← mark? .dot then
    let property ← ident
    grammar (.callTail (.member (callee.loc.upTo property.loc) callee property))
  else if ← mark? .openBracket then
    let key ← grammar .expr
    let stop ← mark .closeBracket
    grammar (.callTail (.index (callee.loc.upTo stop) callee key))
  else return callee

def postfixRule (grammar : Grammar) (primary : Expr) : Parser Expr := do
  let operand ← grammar (.callTail primary)
  match ← take? updateOp with
  | some (op, stop) => return .update (operand.loc.upTo stop) op false operand
  | none => return operand

def unaryRule (grammar : Grammar) : Parser Expr := do
  match ← take? unaryOp with
  | some (op, start) =>
    let operand ← grammar .unary
    return .unary (start.upTo operand.loc) op operand
  | none =>
    match ← take? updateOp with
    | some (op, start) =>
      let operand ← grammar .unary
      return .update (start.upTo operand.loc) op true operand
    | none => postfixRule grammar (← primaryRule grammar)

/-- Operands and operators of the given levels and all tighter ones, where the first operand is
parsed as given. -/
def levelsRule (grammar : Grammar) (first : Parser Expr) : List Level → Parser Expr
  | [] => first
  | level :: tighter => do
    let left ← levelsRule grammar first tighter
    grammar (.levelTail level tighter left)

def levelTailRule (grammar : Grammar) (level : Level) (tighter : List Level) (left : Expr) :
    Parser Expr := do
  match ← take? level with
  | some (op, _) =>
    let right ← levelsRule grammar (grammar .unary) tighter
    grammar (.levelTail level tighter (.operation (left.loc.upTo right.loc) op left right))
  | none => return left

/-- A conditional expression whose first operand is parsed as given. -/
def conditionalRule (grammar : Grammar) (first : Parser Expr) : Parser Expr := do
  let test ← levelsRule grammar first levels
  if ← mark? .question then
    let yes ← grammar .assignExpr
    let _ ← mark .colon
    let no ← grammar .assignExpr
    return .conditional (test.loc.upTo no.loc) test yes no
  else return test

/-- An assignment, or a conditional expression alone, whose first operand is parsed as given. -/
def assignmentRule (grammar : Grammar) (first : Parser Expr) : Parser Expr := do
  let target ← conditionalRule grammar first
  match ← take? assignOp with
  | some (op, _) =>
    let value ← grammar .assignExpr
    return .assign (target.loc.upTo value.loc) op target value
  | none => return target

def arrowRule (grammar : Grammar) (start : Loc) (head : ArrowHead) : Parser Expr := do
  let _ ← mark .arrow
  let body ← if ← atMark .openBrace then .block <$> grammar .block else .expr <$> grammar .assignExpr
  return .arrow (start.upTo body.loc) head body

/-- An expression without commas. A name or an expression in parentheses at its start is the head
of an arrow function if an arrow follows; nothing but an arrow can follow empty parentheses. -/
def assignExprRule (grammar : Grammar) : Parser Expr := do
  match ← get with
  | ⟨.name text, loc⟩ :: rest@(⟨.mark .arrow, _⟩ :: _) =>
    set rest
    arrowRule grammar loc (.name ⟨text, loc⟩)
  | ⟨.mark .openParen, start⟩ :: ⟨.mark .closeParen, _⟩ :: rest =>
    set rest
    arrowRule grammar start .empty
  | ⟨.mark .openParen, start⟩ :: rest =>
    set rest
    let inner ← grammar .expr
    let stop ← mark .closeParen
    if ← atMark .arrow then arrowRule grammar start (.group inner)
    else assignmentRule grammar (postfixRule grammar (.group (start.upTo stop) inner))
  | _ => assignmentRule grammar (grammar .unary)

/-! ## Declarations -/

def namesRule (grammar : Grammar) : Parser (List Ident) := do
  let first ← ident
  if ← mark? .comma then return first :: (← grammar .names)
  else return [first]

def declaratorRest (grammar : Grammar) (name : Ident) : Parser Declarator := do
  if ← mark? .assign then
    let value ← grammar .assignExpr
    return .mk (name.loc.upTo value.loc) name (some value)
  else return .mk name.loc name none

def declaratorsFrom (grammar : Grammar) (first : Declarator) : Parser (List Declarator) := do
  if ← mark? .comma then return first :: (← grammar .declarators)
  else return [first]

def declaratorsRule (grammar : Grammar) : Parser (List Declarator) := do
  declaratorsFrom grammar (← declaratorRest grammar (← ident))

def declarationOf (start : Loc) (kind : DeclKind) (declarators : List Declarator) : Declaration :=
  let stop := (declarators.getLast?.map Declarator.loc).getD start
  .mk (start.upTo stop) kind declarators

/-! ## Statements -/

/-- An expression and a semicolon; the place of the semicolon is given too. -/
def exprSemicolon (grammar : Grammar) : Parser (Expr × Loc) := do
  let value ← grammar .expr
  return (value, ← mark .semicolon)

def parenthesized (grammar : Grammar) : Parser Expr := do
  let _ ← mark .openParen
  let value ← grammar .expr
  let _ ← mark .closeParen
  return value

def exprUnless (grammar : Grammar) (close : Mark) : Parser (Option Expr) := do
  if ← atMark close then return none else return some (← grammar .expr)

def blockRule (grammar : Grammar) : Parser Block := do
  let start ← mark .openBrace
  let body ← grammar (.statements .block)
  let stop ← mark .closeBrace
  return .mk (start.upTo stop) body

def statementsRule (grammar : Grammar) (until_ : ListEnd) : Parser (List Stmt) := do
  if until_.stops (← peek?) then return []
  else
    let first ← grammar .statement
    return first :: (← grammar (.statements until_))

def functionRule (grammar : Grammar) (start : Loc) : Parser Stmt := do
  let name ← ident
  let params ← paramsRule grammar
  let body ← grammar .block
  return .function (start.upTo body.loc) name params body

/-- An `if` statement after its keyword. An `else` belongs to the nearest `if`. -/
def ifRule (grammar : Grammar) (start : Loc) : Parser Stmt := do
  let test ← parenthesized grammar
  let yes ← grammar .statement
  if ← keyword? .else then
    let no ← grammar .statement
    return .ifElse (start.upTo no.loc) test yes (some no)
  else return .ifElse (start.upTo yes.loc) test yes none

def forLoopRule (grammar : Grammar) (start : Loc) (init : Option ForInit) : Parser Stmt := do
  let _ ← mark .semicolon
  let test ← exprUnless grammar .semicolon
  let _ ← mark .semicolon
  let update ← exprUnless grammar .closeParen
  let _ ← mark .closeParen
  let body ← grammar .statement
  return .forLoop (start.upTo body.loc) init test update body

/-- The rest of a loop over a collection after the word between its left and its right side. The
values come from an expression without commas, the keys from any expression. -/
def forEachRule (grammar : Grammar) (start : Loc) (kind : EachKind) (target : ForTarget) :
    Parser Stmt := do
  let subject ← match kind with
    | .keys => grammar .expr
    | .values => grammar .assignExpr
  let _ ← mark .closeParen
  let body ← grammar .statement
  return .forEach (start.upTo body.loc) kind target subject body

def eachKind : Terminal → Option EachKind
  | .keyword .in => some .keys
  | .keyword .of => some .values
  | _ => none

def forRule (grammar : Grammar) (start : Loc) : Parser Stmt := do
  let _ ← mark .openParen
  match ← take? declKind with
  | some (kind, kindLoc) =>
    let name ← ident
    match ← take? eachKind with
    | some (each, _) =>
      forEachRule grammar start each (.declared (kindLoc.upTo name.loc) kind name)
    | none =>
      let declarators ← declaratorsFrom grammar (← declaratorRest grammar name)
      forLoopRule grammar start (some (.declaration (declarationOf kindLoc kind declarators)))
  | none =>
    match ← get with
    | ⟨.name text, loc⟩ :: rest@(second :: afterSecond) =>
      match eachKind second.terminal with
      | some each =>
        set afterSecond
        forEachRule grammar start each (.existing ⟨text, loc⟩)
      | none =>
        set (⟨.name text, loc⟩ :: rest)
        forLoopRule grammar start (some (.expr (← grammar .expr)))
    | _ =>
      if ← atMark .semicolon then forLoopRule grammar start none
      else forLoopRule grammar start (some (.expr (← grammar .expr)))

def whileRule (grammar : Grammar) (start : Loc) : Parser Stmt := do
  let test ← parenthesized grammar
  let body ← grammar .statement
  return .whileLoop (start.upTo body.loc) test body

def doWhileRule (grammar : Grammar) (start : Loc) : Parser Stmt := do
  let body ← grammar .statement
  let _ ← keyword .while
  let test ← parenthesized grammar
  let stop ← mark .semicolon
  return .doWhile (start.upTo stop) body test

/-- The label of a jump, if it has one, and the semicolon after it. -/
def jumpRest : Parser (Option Ident × Loc) := do
  let label ← ident?
  return (label, ← mark .semicolon)

def catchRule (grammar : Grammar) (start : Loc) : Parser CatchClause := do
  let _ ← mark .openParen
  let param ← ident
  let _ ← mark .closeParen
  let body ← grammar .block
  return .mk (start.upTo body.loc) param body

def tryRule (grammar : Grammar) (start : Loc) : Parser Stmt := do
  let block ← grammar .block
  match ← take? (only (.keyword .catch)) with
  | some (_, catchLoc) =>
    let handler ← catchRule grammar catchLoc
    if ← keyword? .finally then
      let finalizer ← grammar .block
      return .tryCatch (start.upTo finalizer.loc) block (some handler) (some finalizer)
    else return .tryCatch (start.upTo handler.loc) block (some handler) none
  | none =>
    let _ ← keyword .finally
    let finalizer ← grammar .block
    return .tryCatch (start.upTo finalizer.loc) block none (some finalizer)

/-- The statements of a case and their last place, which is the colon if there are none. -/
def caseBody (grammar : Grammar) : Parser (List Stmt × Loc) := do
  let colon ← mark .colon
  let body ← grammar (.statements .case)
  return (body, (body.getLast?.map Stmt.loc).getD colon)

def casesRule (grammar : Grammar) : Parser (List Case) := do
  match ← take? (only (.keyword .case)) with
  | some (_, start) =>
    let test ← grammar .expr
    let (body, stop) ← caseBody grammar
    return .mk (start.upTo stop) (some test) body :: (← grammar .cases)
  | none =>
    match ← take? (only (.keyword .default)) with
    | some (_, start) =>
      let (body, stop) ← caseBody grammar
      return .mk (start.upTo stop) none body :: (← grammar .cases)
    | none => return []

def switchRule (grammar : Grammar) (start : Loc) : Parser Stmt := do
  let subject ← parenthesized grammar
  let _ ← mark .openBrace
  let cases ← grammar .cases
  let stop ← mark .closeBrace
  return .switch (start.upTo stop) subject cases

def exprStatement (grammar : Grammar) : Parser Stmt := do
  let (value, stop) ← exprSemicolon grammar
  return .expr (value.loc.upTo stop) value

def keywordStatement (grammar : Grammar) (word : Keyword) (start : Loc) : Parser Stmt := do
  let advance : Parser Unit := modify List.tail
  match word with
  | .function =>
    match (← peekSecond?).bind nameText with
    | some _ =>
      advance
      functionRule grammar start
    | none => exprStatement grammar
  | .if =>
    advance
    ifRule grammar start
  | .for =>
    advance
    forRule grammar start
  | .while =>
    advance
    whileRule grammar start
  | .do =>
    advance
    doWhileRule grammar start
  | .return =>
    advance
    let value ← exprUnless grammar .semicolon
    let stop ← mark .semicolon
    return .returns (start.upTo stop) value
  | .break =>
    advance
    let (label, stop) ← jumpRest
    return .breaks (start.upTo stop) label
  | .continue =>
    advance
    let (label, stop) ← jumpRest
    return .continues (start.upTo stop) label
  | .throw =>
    advance
    let (value, stop) ← exprSemicolon grammar
    return .throws (start.upTo stop) value
  | .try =>
    advance
    tryRule grammar start
  | .switch =>
    advance
    switchRule grammar start
  | other =>
    match declKind (.keyword other) with
    | some kind =>
      advance
      let declaration := declarationOf start kind (← grammar .declarators)
      let stop ← mark .semicolon
      return .declaration (start.upTo stop) declaration
    | none => exprStatement grammar

def statementRule (grammar : Grammar) : Parser Stmt := do
  match ← get with
  | ⟨.keyword word, start⟩ :: _ => keywordStatement grammar word start
  | ⟨.mark .openBrace, _⟩ :: _ => return .block (← grammar .block)
  | ⟨.mark .semicolon, loc⟩ :: rest =>
    set rest
    return .empty loc
  | ⟨.name text, loc⟩ :: ⟨.mark .colon, _⟩ :: rest =>
    set rest
    let body ← grammar .statement
    return .labeled (loc.upTo body.loc) ⟨text, loc⟩ body
  | _ => exprStatement grammar

/-! ## The grammar -/

def rule (grammar : Grammar) : Grammar
  | .expr => exprRule grammar
  | .exprTail left => exprTailRule grammar left
  | .assignExpr => assignExprRule grammar
  | .exprList => exprListRule grammar
  | .levelTail level tighter left => levelTailRule grammar level tighter left
  | .unary => unaryRule grammar
  | .callTail callee => callTailRule grammar callee
  | .names => namesRule grammar
  | .declarators => declaratorsRule grammar
  | .block => blockRule grammar
  | .statement => statementRule grammar
  | .statements until_ => statementsRule grammar until_
  | .cases => casesRule grammar

def parseGoal : Nat → Grammar
  | 0, _ => throw .depth
  | depth + 1, goal => rule (parseGoal depth) goal

/-- A bound on the depth of calls for a number of tokens: between two tokens taken, rules call each
other fewer than eight times. -/
def depthFor (tokens : Nat) : Nat := 8 * (tokens + 1)

def parse (tokens : List Token) : Except Rejection (List Stmt) := do
  let (statements, _) ← (parseGoal (depthFor tokens.length) (.statements .program)).run tokens
  return statements

end LoopCapture.Concrete
