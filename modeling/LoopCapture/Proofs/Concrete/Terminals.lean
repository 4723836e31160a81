import LoopCapture.Concrete.Basic
import LoopCapture.Token.Basic

/-!
# The terminals of concrete trees

The terminals of a tree are those of the text that it stands for, in their order. Punctuation, which
trees leave implicit, is back in place.
-/

set_option autoImplicit false

namespace LoopCapture.Concrete

/-! ## Operators and reserved words -/

def Constant.keyword : Constant → Keyword
  | .true => .true
  | .false => .false
  | .null => .null
  | .this => .this

def InfixOp.mark : InfixOp → Mark
  | .logical .or => .or
  | .logical .and => .and
  | .binary (.equal .strictEqual) => .strictEqual
  | .binary (.equal .strictUnequal) => .strictUnequal
  | .binary (.equal .looseEqual) => .looseEqual
  | .binary (.equal .looseUnequal) => .looseUnequal
  | .binary (.order .less) => .less
  | .binary (.order .lessEqual) => .lessEqual
  | .binary (.order .greater) => .greater
  | .binary (.order .greaterEqual) => .greaterEqual
  | .binary (.arith .add) => .plus
  | .binary (.arith .sub) => .minus
  | .binary (.arith .mul) => .times
  | .binary (.arith .div) => .over
  | .binary (.arith .rem) => .percent

def assignMark : AssignOp → Mark
  | .plain => .assign
  | .combined .add => .addAssign
  | .combined .sub => .subAssign
  | .combined .mul => .mulAssign
  | .combined .div => .divAssign
  | .combined .rem => .remAssign

def unaryTerminal : UnaryOp → Terminal
  | .not => .mark .bang
  | .negate => .mark .minus
  | .plus => .mark .plus
  | .typeof => .keyword .typeof

def updateMark : UpdateOp → Mark
  | .increment => .increment
  | .decrement => .decrement

def declKeyword : DeclKind → Keyword
  | .var => .var
  | .let => .let
  | .const => .const

/-- The reserved word between the sides of a loop over a collection. -/
def eachKeyword : EachKind → Keyword
  | .keys => .in
  | .values => .of

/-! ## Trees -/

def nameTerminals : List Ident → List Terminal
  | [] => []
  | [x] => [.name x.name]
  | x :: rest => .name x.name :: .mark .comma :: nameTerminals rest

def targetTerminals : ForTarget → List Terminal
  | .declared _ kind x => [.keyword (declKeyword kind), .name x.name]
  | .existing x => [.name x.name]

/-- A label, if there is one. -/
def labelTerminals : Option Ident → List Terminal
  | none => []
  | some x => [.name x.name]

mutual

def Expr.terminals : Expr → List Terminal
  | .name x => [.name x.name]
  | .number _ text => [.number text]
  | .string _ text => [.string text]
  | .constant _ value => [.keyword value.keyword]
  | .array _ items => .mark .openBracket :: (exprTerminals items ++ [.mark .closeBracket])
  | .function _ params body =>
    .keyword .function :: .mark .openParen ::
      (nameTerminals params ++ .mark .closeParen :: body.terminals)
  | .group _ inner => .mark .openParen :: (inner.terminals ++ [.mark .closeParen])
  | .arrow _ head body => head.terminals ++ .mark .arrow :: body.terminals
  | .sequence _ left right => left.terminals ++ .mark .comma :: right.terminals
  | .assign _ op target value => target.terminals ++ .mark (assignMark op) :: value.terminals
  | .conditional _ test yes no =>
    test.terminals ++ .mark .question :: (yes.terminals ++ .mark .colon :: no.terminals)
  | .operation _ op left right => left.terminals ++ .mark op.mark :: right.terminals
  | .unary _ op operand => unaryTerminal op :: operand.terminals
  | .update _ op true operand => .mark (updateMark op) :: operand.terminals
  | .update _ op false operand => operand.terminals ++ [.mark (updateMark op)]
  | .call _ callee args =>
    callee.terminals ++ .mark .openParen :: (exprTerminals args ++ [.mark .closeParen])
  | .member _ object property => object.terminals ++ [.mark .dot, .name property.name]
  | .index _ object key =>
    object.terminals ++ .mark .openBracket :: (key.terminals ++ [.mark .closeBracket])

def exprTerminals : List Expr → List Terminal
  | [] => []
  | first :: rest =>
    first.terminals ++ if rest.isEmpty then [] else .mark .comma :: exprTerminals rest

def exprOptionTerminals : Option Expr → List Terminal
  | none => []
  | some value => value.terminals

def ArrowHead.terminals : ArrowHead → List Terminal
  | .empty => [.mark .openParen, .mark .closeParen]
  | .name x => [.name x.name]
  | .group inner => .mark .openParen :: (inner.terminals ++ [.mark .closeParen])

def ArrowBody.terminals : ArrowBody → List Terminal
  | .block body => body.terminals
  | .expr value => value.terminals

def Block.terminals : Block → List Terminal
  | .mk _ body => .mark .openBrace :: (stmtTerminals body ++ [.mark .closeBrace])

def declaratorTerminals : List Declarator → List Terminal
  | [] => []
  | .mk _ x init :: rest =>
    .name x.name :: (initTerminals init ++
      if rest.isEmpty then [] else .mark .comma :: declaratorTerminals rest)

def initTerminals : Option Expr → List Terminal
  | none => []
  | some value => .mark .assign :: value.terminals

def Declaration.terminals : Declaration → List Terminal
  | .mk _ kind declarators => .keyword (declKeyword kind) :: declaratorTerminals declarators

def forInitTerminals : Option ForInit → List Terminal
  | none => []
  | some (.declaration item) => item.terminals
  | some (.expr value) => value.terminals

def handlerTerminals : Option CatchClause → List Terminal
  | none => []
  | some (.mk _ param body) =>
    .keyword .catch :: .mark .openParen :: .name param.name :: .mark .closeParen :: body.terminals

def finalizerTerminals : Option Block → List Terminal
  | none => []
  | some body => .keyword .finally :: body.terminals

def caseTerminals : List Case → List Terminal
  | [] => []
  | .mk _ test body :: rest =>
    testTerminals test ++ .mark .colon :: (stmtTerminals body ++ caseTerminals rest)

def testTerminals : Option Expr → List Terminal
  | none => [.keyword .default]
  | some test => .keyword .case :: test.terminals

def Stmt.terminals : Stmt → List Terminal
  | .declaration _ item => item.terminals ++ [.mark .semicolon]
  | .function _ name params body =>
    .keyword .function :: .name name.name :: .mark .openParen ::
      (nameTerminals params ++ .mark .closeParen :: body.terminals)
  | .block body => body.terminals
  | .ifElse _ test yes no =>
    .keyword .if :: .mark .openParen ::
      (test.terminals ++ .mark .closeParen :: (yes.terminals ++ elseTerminals no))
  | .forLoop _ init test update body =>
    .keyword .for :: .mark .openParen :: (forInitTerminals init ++ .mark .semicolon ::
      (exprOptionTerminals test ++ .mark .semicolon ::
        (exprOptionTerminals update ++ .mark .closeParen :: body.terminals)))
  | .forEach _ kind target subject body =>
    .keyword .for :: .mark .openParen :: (targetTerminals target ++ .keyword (eachKeyword kind) ::
      (subject.terminals ++ .mark .closeParen :: body.terminals))
  | .whileLoop _ test body =>
    .keyword .while :: .mark .openParen :: (test.terminals ++ .mark .closeParen :: body.terminals)
  | .doWhile _ body test =>
    .keyword .do :: (body.terminals ++ .keyword .while :: .mark .openParen ::
      (test.terminals ++ [.mark .closeParen, .mark .semicolon]))
  | .returns _ value => .keyword .return :: (exprOptionTerminals value ++ [.mark .semicolon])
  | .breaks _ label => .keyword .break :: (labelTerminals label ++ [.mark .semicolon])
  | .continues _ label => .keyword .continue :: (labelTerminals label ++ [.mark .semicolon])
  | .throws _ value => .keyword .throw :: (value.terminals ++ [.mark .semicolon])
  | .tryCatch _ body handler finalizer =>
    .keyword .try :: (body.terminals ++ (handlerTerminals handler ++ finalizerTerminals finalizer))
  | .switch _ subject cases =>
    .keyword .switch :: .mark .openParen :: (subject.terminals ++ .mark .closeParen ::
      .mark .openBrace :: (caseTerminals cases ++ [.mark .closeBrace]))
  | .labeled _ label body => .name label.name :: .mark .colon :: body.terminals
  | .expr _ value => value.terminals ++ [.mark .semicolon]
  | .empty _ => [.mark .semicolon]

def elseTerminals : Option Stmt → List Terminal
  | none => []
  | some body => .keyword .else :: body.terminals

def stmtTerminals : List Stmt → List Terminal
  | [] => []
  | first :: rest => first.terminals ++ stmtTerminals rest

end

end LoopCapture.Concrete
