import LoopCapture.Proofs.Concrete.ParserLaws
import LoopCapture.Proofs.Concrete.Terminals

/-!
# What concrete trees say about tokens

`Spells` relates a tree to the tokens that it was read from: its terminals stand at the front, every
name and literal is at its place, and the place of every node reaches from its first to its last
token. The tokens are given as those before and those after the tree has been read.
-/

set_option autoImplicit false

namespace LoopCapture.Concrete

def identSpells (x : Ident) (tokens rest : List Token) : Prop :=
  tokens = ⟨.name x.name, x.loc⟩ :: rest

def markSpells (mark : Mark) (loc : Loc) (tokens rest : List Token) : Prop :=
  tokens = ⟨.mark mark, loc⟩ :: rest

/-- A reserved word at the front of some tokens, at a given place. -/
def keywordSpells (word : Keyword) (loc : Loc) (tokens rest : List Token) : Prop :=
  tokens = ⟨.keyword word, loc⟩ :: rest

def namesSpell : List Ident → List Token → List Token → Prop
  | [], tokens, rest => tokens = rest
  | x :: more, tokens, rest =>
    if more.isEmpty then identSpells x tokens rest
    else ∃ comma between,
      identSpells x tokens (⟨.mark .comma, comma⟩ :: between) ∧ namesSpell more between rest

def targetSpells : ForTarget → List Token → List Token → Prop
  | .declared loc kind x, tokens, rest =>
    ∃ first, tokens = ⟨.keyword (declKeyword kind), first⟩ :: ⟨.name x.name, x.loc⟩ :: rest ∧
      loc = first.upTo x.loc
  | .existing x, tokens, rest => identSpells x tokens rest

/-- A label, if there is one. -/
def labelSpells : Option Ident → List Token → List Token → Prop
  | none, tokens, rest => tokens = rest
  | some x, tokens, rest => identSpells x tokens rest

mutual

/-- An expression spells the tokens that it takes. -/
def Expr.Spells : Expr → List Token → List Token → Prop
  | .name x, tokens, rest => identSpells x tokens rest
  | .number loc text, tokens, rest => tokens = ⟨.number text, loc⟩ :: rest
  | .string loc text, tokens, rest => tokens = ⟨.string text, loc⟩ :: rest
  | .constant loc value, tokens, rest => keywordSpells value.keyword loc tokens rest
  | .array loc items, tokens, rest =>
    ∃ first last inner, markSpells .openBracket first tokens inner ∧
      exprsSpell items inner (⟨.mark .closeBracket, last⟩ :: rest) ∧ loc = first.upTo last
  | .function loc params body, tokens, rest =>
    ∃ first opened closed inner after,
      tokens = ⟨.keyword .function, first⟩ :: ⟨.mark .openParen, opened⟩ :: inner ∧
      namesSpell params inner (⟨.mark .closeParen, closed⟩ :: after) ∧
      body.Spells after rest ∧ loc = first.upTo body.loc
  | .group loc inner, tokens, rest =>
    ∃ first last between, markSpells .openParen first tokens between ∧
      inner.Spells between (⟨.mark .closeParen, last⟩ :: rest) ∧ loc = first.upTo last
  | .arrow loc head body, tokens, rest =>
    ∃ start arrow after, head.Spells start tokens (⟨.mark .arrow, arrow⟩ :: after) ∧
      body.Spells after rest ∧ loc = start.upTo body.loc
  | .sequence loc left right, tokens, rest =>
    ∃ comma between, left.Spells tokens (⟨.mark .comma, comma⟩ :: between) ∧
      right.Spells between rest ∧ loc = left.loc.upTo right.loc
  | .assign loc op target value, tokens, rest =>
    ∃ sign between, target.Spells tokens (⟨.mark (assignMark op), sign⟩ :: between) ∧
      value.Spells between rest ∧ loc = target.loc.upTo value.loc
  | .conditional loc test yes no, tokens, rest =>
    ∃ question colon between after,
      test.Spells tokens (⟨.mark .question, question⟩ :: between) ∧
      yes.Spells between (⟨.mark .colon, colon⟩ :: after) ∧
      no.Spells after rest ∧ loc = test.loc.upTo no.loc
  | .operation loc op left right, tokens, rest =>
    ∃ sign between, left.Spells tokens (⟨.mark op.mark, sign⟩ :: between) ∧
      right.Spells between rest ∧ loc = left.loc.upTo right.loc
  | .unary loc op operand, tokens, rest =>
    ∃ sign between, tokens = ⟨unaryTerminal op, sign⟩ :: between ∧
      operand.Spells between rest ∧ loc = sign.upTo operand.loc
  | .update loc op true operand, tokens, rest =>
    ∃ sign between, markSpells (updateMark op) sign tokens between ∧
      operand.Spells between rest ∧ loc = sign.upTo operand.loc
  | .update loc op false operand, tokens, rest =>
    ∃ sign, operand.Spells tokens (⟨.mark (updateMark op), sign⟩ :: rest) ∧
      loc = operand.loc.upTo sign
  | .call loc callee args, tokens, rest =>
    ∃ opened last between, callee.Spells tokens (⟨.mark .openParen, opened⟩ :: between) ∧
      exprsSpell args between (⟨.mark .closeParen, last⟩ :: rest) ∧ loc = callee.loc.upTo last
  | .member loc object property, tokens, rest =>
    ∃ dot between, object.Spells tokens (⟨.mark .dot, dot⟩ :: between) ∧
      identSpells property between rest ∧ loc = object.loc.upTo property.loc
  | .index loc object key, tokens, rest =>
    ∃ opened last between, object.Spells tokens (⟨.mark .openBracket, opened⟩ :: between) ∧
      key.Spells between (⟨.mark .closeBracket, last⟩ :: rest) ∧ loc = object.loc.upTo last

def exprsSpell : List Expr → List Token → List Token → Prop
  | [], tokens, rest => tokens = rest
  | first :: more, tokens, rest =>
    if more.isEmpty then first.Spells tokens rest
    else ∃ comma between, first.Spells tokens (⟨.mark .comma, comma⟩ :: between) ∧
      exprsSpell more between rest

def exprOptionSpells : Option Expr → List Token → List Token → Prop
  | none, tokens, rest => tokens = rest
  | some value, tokens, rest => value.Spells tokens rest

/-- What stands before an arrow, from the given first token on. -/
def ArrowHead.Spells : ArrowHead → Loc → List Token → List Token → Prop
  | .empty, start, tokens, rest =>
    ∃ closed, tokens = ⟨.mark .openParen, start⟩ :: ⟨.mark .closeParen, closed⟩ :: rest
  | .name x, start, tokens, rest => identSpells x tokens rest ∧ start = x.loc
  | .group inner, start, tokens, rest =>
    ∃ closed between, markSpells .openParen start tokens between ∧
      inner.Spells between (⟨.mark .closeParen, closed⟩ :: rest)

def ArrowBody.Spells : ArrowBody → List Token → List Token → Prop
  | .block body, tokens, rest => body.Spells tokens rest
  | .expr value, tokens, rest => value.Spells tokens rest

def Block.Spells : Block → List Token → List Token → Prop
  | .mk loc body, tokens, rest =>
    ∃ first last inner, markSpells .openBrace first tokens inner ∧
      stmtsSpell body inner (⟨.mark .closeBrace, last⟩ :: rest) ∧ loc = first.upTo last

def declaratorsSpell : List Declarator → List Token → List Token → Prop
  | [], tokens, rest => tokens = rest
  | .mk loc x init :: more, tokens, rest =>
    ∃ between, identSpells x tokens between ∧
      if more.isEmpty then initSpells x loc init between rest
      else ∃ comma after, initSpells x loc init between (⟨.mark .comma, comma⟩ :: after) ∧
        declaratorsSpell more after rest

def initSpells (x : Ident) (loc : Loc) : Option Expr → List Token → List Token → Prop
  | none, tokens, rest => tokens = rest ∧ loc = x.loc
  | some value, tokens, rest =>
    ∃ sign between, markSpells .assign sign tokens between ∧ value.Spells between rest ∧
      loc = x.loc.upTo value.loc

def Declaration.Spells : Declaration → List Token → List Token → Prop
  | .mk loc kind declarators, tokens, rest =>
    ∃ first between, keywordSpells (declKeyword kind) first tokens between ∧
      declaratorsSpell declarators between rest ∧
      loc = first.upTo ((declarators.getLast?.map Declarator.loc).getD first)

def forInitSpells : Option ForInit → List Token → List Token → Prop
  | none, tokens, rest => tokens = rest
  | some (.declaration item), tokens, rest => item.Spells tokens rest
  | some (.expr value), tokens, rest => value.Spells tokens rest

def handlerSpells : Option CatchClause → List Token → List Token → Prop
  | none, tokens, rest => tokens = rest
  | some (.mk loc param body), tokens, rest =>
    ∃ first opened closed after,
      tokens = ⟨.keyword .catch, first⟩ :: ⟨.mark .openParen, opened⟩ ::
        ⟨.name param.name, param.loc⟩ :: ⟨.mark .closeParen, closed⟩ :: after ∧
      body.Spells after rest ∧ loc = first.upTo body.loc

def finalizerSpells : Option Block → List Token → List Token → Prop
  | none, tokens, rest => tokens = rest
  | some body, tokens, rest =>
    ∃ word between, keywordSpells .finally word tokens between ∧ body.Spells between rest

def casesSpell : List Case → List Token → List Token → Prop
  | [], tokens, rest => tokens = rest
  | .mk loc test body :: more, tokens, rest =>
    ∃ first colon between after, testSpells first test tokens (⟨.mark .colon, colon⟩ :: between) ∧
      stmtsSpell body between after ∧ casesSpell more after rest ∧
      loc = first.upTo ((body.getLast?.map Stmt.loc).getD colon)

def testSpells (first : Loc) : Option Expr → List Token → List Token → Prop
  | none, tokens, rest => keywordSpells .default first tokens rest
  | some test, tokens, rest =>
    ∃ between, keywordSpells .case first tokens between ∧ test.Spells between rest

def Stmt.Spells : Stmt → List Token → List Token → Prop
  | .declaration loc item, tokens, rest =>
    ∃ last, item.Spells tokens (⟨.mark .semicolon, last⟩ :: rest) ∧ loc = item.loc.upTo last
  | .function loc name params body, tokens, rest =>
    ∃ first opened closed inner after,
      tokens = ⟨.keyword .function, first⟩ :: ⟨.name name.name, name.loc⟩ ::
        ⟨.mark .openParen, opened⟩ :: inner ∧
      namesSpell params inner (⟨.mark .closeParen, closed⟩ :: after) ∧
      body.Spells after rest ∧ loc = first.upTo body.loc
  | .block body, tokens, rest => body.Spells tokens rest
  | .ifElse loc test yes no, tokens, rest =>
    ∃ first opened closed inner after between,
      tokens = ⟨.keyword .if, first⟩ :: ⟨.mark .openParen, opened⟩ :: inner ∧
      test.Spells inner (⟨.mark .closeParen, closed⟩ :: after) ∧
      yes.Spells after between ∧ elseSpells no between rest ∧
      loc = first.upTo ((no.map Stmt.loc).getD yes.loc)
  | .forLoop loc init test update body, tokens, rest =>
    ∃ first opened one two closed start middle last after,
      tokens = ⟨.keyword .for, first⟩ :: ⟨.mark .openParen, opened⟩ :: start ∧
      forInitSpells init start (⟨.mark .semicolon, one⟩ :: middle) ∧
      exprOptionSpells test middle (⟨.mark .semicolon, two⟩ :: last) ∧
      exprOptionSpells update last (⟨.mark .closeParen, closed⟩ :: after) ∧
      body.Spells after rest ∧ loc = first.upTo body.loc
  | .forEach loc kind target subject body, tokens, rest =>
    ∃ first opened word closed start middle after,
      tokens = ⟨.keyword .for, first⟩ :: ⟨.mark .openParen, opened⟩ :: start ∧
      targetSpells target start (⟨.keyword (eachKeyword kind), word⟩ :: middle) ∧
      subject.Spells middle (⟨.mark .closeParen, closed⟩ :: after) ∧
      body.Spells after rest ∧ loc = first.upTo body.loc
  | .whileLoop loc test body, tokens, rest =>
    ∃ first opened closed inner after,
      tokens = ⟨.keyword .while, first⟩ :: ⟨.mark .openParen, opened⟩ :: inner ∧
      test.Spells inner (⟨.mark .closeParen, closed⟩ :: after) ∧
      body.Spells after rest ∧ loc = first.upTo body.loc
  | .doWhile loc body test, tokens, rest =>
    ∃ first word opened closed last inner after,
      keywordSpells .do first tokens inner ∧
      body.Spells inner (⟨.keyword .while, word⟩ :: ⟨.mark .openParen, opened⟩ :: after) ∧
      test.Spells after (⟨.mark .closeParen, closed⟩ :: ⟨.mark .semicolon, last⟩ :: rest) ∧
      loc = first.upTo last
  | .returns loc value, tokens, rest =>
    ∃ first last inner, keywordSpells .return first tokens inner ∧
      exprOptionSpells value inner (⟨.mark .semicolon, last⟩ :: rest) ∧ loc = first.upTo last
  | .breaks loc label, tokens, rest =>
    ∃ first last inner, keywordSpells .break first tokens inner ∧
      labelSpells label inner (⟨.mark .semicolon, last⟩ :: rest) ∧ loc = first.upTo last
  | .continues loc label, tokens, rest =>
    ∃ first last inner, keywordSpells .continue first tokens inner ∧
      labelSpells label inner (⟨.mark .semicolon, last⟩ :: rest) ∧ loc = first.upTo last
  | .throws loc value, tokens, rest =>
    ∃ first last inner, keywordSpells .throw first tokens inner ∧
      value.Spells inner (⟨.mark .semicolon, last⟩ :: rest) ∧ loc = first.upTo last
  | .tryCatch loc body handler finalizer, tokens, rest =>
    ∃ first inner between after, keywordSpells .try first tokens inner ∧
      body.Spells inner between ∧ handlerSpells handler between after ∧
      finalizerSpells finalizer after rest ∧
      loc = first.upTo ((finalizer.map Block.loc).getD ((handler.map CatchClause.loc).getD body.loc))
  | .switch loc subject cases, tokens, rest =>
    ∃ first opened closed brace last inner after,
      tokens = ⟨.keyword .switch, first⟩ :: ⟨.mark .openParen, opened⟩ :: inner ∧
      subject.Spells inner (⟨.mark .closeParen, closed⟩ :: ⟨.mark .openBrace, brace⟩ :: after) ∧
      casesSpell cases after (⟨.mark .closeBrace, last⟩ :: rest) ∧ loc = first.upTo last
  | .labeled loc label body, tokens, rest =>
    ∃ colon after, identSpells label tokens (⟨.mark .colon, colon⟩ :: after) ∧
      body.Spells after rest ∧ loc = label.loc.upTo body.loc
  | .expr loc value, tokens, rest =>
    ∃ last, value.Spells tokens (⟨.mark .semicolon, last⟩ :: rest) ∧ loc = value.loc.upTo last
  | .empty loc, tokens, rest => markSpells .semicolon loc tokens rest

def elseSpells : Option Stmt → List Token → List Token → Prop
  | none, tokens, rest => tokens = rest
  | some body, tokens, rest =>
    ∃ word between, keywordSpells .else word tokens between ∧ body.Spells between rest

def stmtsSpell : List Stmt → List Token → List Token → Prop
  | [], tokens, rest => tokens = rest
  | first :: more, tokens, rest =>
    ∃ between, first.Spells tokens between ∧ stmtsSpell more between rest

end

end LoopCapture.Concrete
