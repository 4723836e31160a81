import LoopCapture.Proofs.Concrete.Terminals
import LoopCapture.Proofs.Concrete.Strata

/-!
# The grammar

A symbol of the grammar derives a sequence of terminals, and a derivation is recorded by the concrete
tree of its productions. The grammar is ambiguous in two places: an `else` may belong to any `if`
before it, and an assignment operator after a conditional expression may belong to the alternate or
to the whole. A strict derivation takes the nearest `if` and the alternate.
-/

set_option autoImplicit false

namespace LoopCapture.Concrete

/-- The symbols of the grammar. The expressions are stratified by how tightly they hold together,
from the comma operator at stratum zero to primary expressions. -/
inductive Nonterminal where
  | statements
  | statement
  | declaration
  | declarators
  | initial
  | params
  | names
  | block
  | alternative
  | forInit
  | target
  | optionalExpr
  | label
  | handler
  | finalizer
  | cases
  | caseTest
  | expr (stratum : Nat)
  | arrowBody
  | args
  | exprs

abbrev Nonterminal.start : Nonterminal := .statements

/-- The trees that record the derivations of a symbol. -/
@[reducible] def Nonterminal.Tree : Nonterminal → Type
  | statements => List Stmt
  | statement => Stmt
  | declaration => Declaration
  | declarators => List Declarator
  | initial => Option Expr
  | params => List Ident
  | names => List Ident
  | block => Block
  | alternative => Option Stmt
  | forInit => Option ForInit
  | target => ForTarget
  | optionalExpr => Option Expr
  | label => Option Ident
  | handler => CatchClause
  | finalizer => Block
  | cases => List Case
  | caseTest => Option Expr
  | expr _ => Expr
  | arrowBody => ArrowBody
  | args => List Expr
  | exprs => List Expr

/-- A symbol derives some terminals by the productions of a tree, whatever the places in the tree. -/
inductive Derives (strict : Bool) : (symbol : Nonterminal) → symbol.Tree → List Terminal → Prop where
  -- Sequences of statements
  | noStatements : Derives strict .statements [] []
  | moreStatements {first : Stmt} {rest : List Stmt} {u v : List Terminal} :
      Derives strict .statement first u → Derives strict .statements rest v →
      Derives strict .statements (first :: rest) (u ++ v)
  -- Statements
  | declarationStatement {loc : Loc} {item : Declaration} {u : List Terminal} :
      Derives strict .declaration item u →
      Derives strict .statement (.declaration loc item) (u ++ [.mark .semicolon])
  | functionDeclaration {loc : Loc} {x : Ident} {params : List Ident} {body : Block}
      {u v : List Terminal} :
      Derives strict .params params u → Derives strict .block body v →
      Derives strict .statement (.function loc x params body)
        (.keyword .function :: .name x.name :: .mark .openParen :: (u ++ .mark .closeParen :: v))
  | blockStatement {body : Block} {u : List Terminal} :
      Derives strict .block body u → Derives strict .statement (.block body) u
  | ifStatement {loc : Loc} {test : Expr} {yes : Stmt} {no : Option Stmt} {u v w : List Terminal} :
      Derives strict (.expr 0) test u → Derives strict .statement yes v →
      Derives strict .alternative no w →
      -- Strictly, the `else` is not one that the branch before it could take.
      (strict = true → no.isSome → yes.takesElse = false) →
      Derives strict .statement (.ifElse loc test yes no)
        (.keyword .if :: .mark .openParen :: (u ++ .mark .closeParen :: (v ++ w)))
  | forStatement {loc : Loc} {init : Option ForInit} {test update : Option Expr} {body : Stmt}
      {u v w x : List Terminal} :
      Derives strict .forInit init u → Derives strict .optionalExpr test v →
      Derives strict .optionalExpr update w → Derives strict .statement body x →
      Derives strict .statement (.forLoop loc init test update body)
        (.keyword .for :: .mark .openParen :: (u ++ .mark .semicolon ::
          (v ++ .mark .semicolon :: (w ++ .mark .closeParen :: x))))
  | forInStatement {loc : Loc} {target : ForTarget} {subject : Expr} {body : Stmt}
      {u v w : List Terminal} :
      Derives strict .target target u → Derives strict (.expr 0) subject v →
      Derives strict .statement body w →
      Derives strict .statement (.forEach loc .keys target subject body)
        (.keyword .for :: .mark .openParen :: (u ++ .keyword .in :: (v ++ .mark .closeParen :: w)))
  | forOfStatement {loc : Loc} {target : ForTarget} {subject : Expr} {body : Stmt}
      {u v w : List Terminal} :
      Derives strict .target target u → Derives strict (.expr Grade.assignment) subject v →
      Derives strict .statement body w →
      Derives strict .statement (.forEach loc .values target subject body)
        (.keyword .for :: .mark .openParen :: (u ++ .keyword .of :: (v ++ .mark .closeParen :: w)))
  | whileStatement {loc : Loc} {test : Expr} {body : Stmt} {u v : List Terminal} :
      Derives strict (.expr 0) test u → Derives strict .statement body v →
      Derives strict .statement (.whileLoop loc test body)
        (.keyword .while :: .mark .openParen :: (u ++ .mark .closeParen :: v))
  | doWhileStatement {loc : Loc} {body : Stmt} {test : Expr} {u v : List Terminal} :
      Derives strict .statement body u → Derives strict (.expr 0) test v →
      Derives strict .statement (.doWhile loc body test)
        (.keyword .do :: (u ++ .keyword .while :: .mark .openParen ::
          (v ++ [.mark .closeParen, .mark .semicolon])))
  | returnStatement {loc : Loc} {value : Option Expr} {u : List Terminal} :
      Derives strict .optionalExpr value u →
      Derives strict .statement (.returns loc value) (.keyword .return :: (u ++ [.mark .semicolon]))
  | breakStatement {loc : Loc} {x : Option Ident} {u : List Terminal} :
      Derives strict .label x u →
      Derives strict .statement (.breaks loc x) (.keyword .break :: (u ++ [.mark .semicolon]))
  | continueStatement {loc : Loc} {x : Option Ident} {u : List Terminal} :
      Derives strict .label x u →
      Derives strict .statement (.continues loc x) (.keyword .continue :: (u ++ [.mark .semicolon]))
  | throwStatement {loc : Loc} {value : Expr} {u : List Terminal} :
      Derives strict (.expr 0) value u →
      Derives strict .statement (.throws loc value) (.keyword .throw :: (u ++ [.mark .semicolon]))
  | tryCatch {loc : Loc} {body : Block} {clause : CatchClause} {u v : List Terminal} :
      Derives strict .block body u → Derives strict .handler clause v →
      Derives strict .statement (.tryCatch loc body (some clause) none) (.keyword .try :: (u ++ v))
  | tryFinally {loc : Loc} {body final : Block} {u v : List Terminal} :
      Derives strict .block body u → Derives strict .finalizer final v →
      Derives strict .statement (.tryCatch loc body none (some final)) (.keyword .try :: (u ++ v))
  | tryCatchFinally {loc : Loc} {body : Block} {clause : CatchClause} {final : Block}
      {u v w : List Terminal} :
      Derives strict .block body u → Derives strict .handler clause v →
      Derives strict .finalizer final w →
      Derives strict .statement (.tryCatch loc body (some clause) (some final))
        (.keyword .try :: (u ++ (v ++ w)))
  | switchStatement {loc : Loc} {subject : Expr} {items : List Case} {u v : List Terminal} :
      Derives strict (.expr 0) subject u → Derives strict .cases items v →
      Derives strict .statement (.switch loc subject items)
        (.keyword .switch :: .mark .openParen :: (u ++ .mark .closeParen :: .mark .openBrace ::
          (v ++ [.mark .closeBrace])))
  | labeledStatement {loc : Loc} {x : Ident} {body : Stmt} {u : List Terminal} :
      Derives strict .statement body u →
      Derives strict .statement (.labeled loc x body) (.name x.name :: .mark .colon :: u)
  | exprStatement {loc : Loc} {value : Expr} {u : List Terminal} :
      Derives strict (.expr 0) value u →
      Derives strict .statement (.expr loc value) (u ++ [.mark .semicolon])
  | emptyStatement {loc : Loc} : Derives strict .statement (.empty loc) [.mark .semicolon]
  -- Parts of statements
  | declares {loc : Loc} {kind : DeclKind} {items : List Declarator} {u : List Terminal} :
      Derives strict .declarators items u →
      Derives strict .declaration (.mk loc kind items) (.keyword (declKeyword kind) :: u)
  | oneDeclarator {loc : Loc} {x : Ident} {value : Option Expr} {u : List Terminal} :
      Derives strict .initial value u →
      Derives strict .declarators [.mk loc x value] (.name x.name :: u)
  | moreDeclarators {loc : Loc} {x : Ident} {value : Option Expr} {rest : List Declarator}
      {u v : List Terminal} :
      Derives strict .initial value u → Derives strict .declarators rest v →
      Derives strict .declarators (.mk loc x value :: rest)
        (.name x.name :: (u ++ .mark .comma :: v))
  | noInitial : Derives strict .initial none []
  | initial {value : Expr} {u : List Terminal} :
      Derives strict (.expr Grade.assignment) value u →
      Derives strict .initial (some value) (.mark .assign :: u)
  | noParams : Derives strict .params [] []
  | params {names : List Ident} {u : List Terminal} :
      Derives strict .names names u → Derives strict .params names u
  | oneName {x : Ident} : Derives strict .names [x] [.name x.name]
  | moreNames {x : Ident} {rest : List Ident} {u : List Terminal} :
      Derives strict .names rest u →
      Derives strict .names (x :: rest) (.name x.name :: .mark .comma :: u)
  | braces {loc : Loc} {body : List Stmt} {u : List Terminal} :
      Derives strict .statements body u →
      Derives strict .block (.mk loc body) (.mark .openBrace :: (u ++ [.mark .closeBrace]))
  | noElse : Derives strict .alternative none []
  | elseBranch {body : Stmt} {u : List Terminal} :
      Derives strict .statement body u →
      Derives strict .alternative (some body) (.keyword .else :: u)
  | noForInit : Derives strict .forInit none []
  | forDeclaration {item : Declaration} {u : List Terminal} :
      Derives strict .declaration item u → Derives strict .forInit (some (.declaration item)) u
  | forExpr {value : Expr} {u : List Terminal} :
      Derives strict (.expr 0) value u → Derives strict .forInit (some (.expr value)) u
  | declaredTarget {loc : Loc} {kind : DeclKind} {x : Ident} :
      Derives strict .target (.declared loc kind x) [.keyword (declKeyword kind), .name x.name]
  | existingTarget {x : Ident} : Derives strict .target (.existing x) [.name x.name]
  | noExpr : Derives strict .optionalExpr none []
  | someExpr {value : Expr} {u : List Terminal} :
      Derives strict (.expr 0) value u → Derives strict .optionalExpr (some value) u
  | noLabel : Derives strict .label none []
  | label {x : Ident} : Derives strict .label (some x) [.name x.name]
  | catches {loc : Loc} {x : Ident} {body : Block} {u : List Terminal} :
      Derives strict .block body u →
      Derives strict .handler (.mk loc x body)
        (.keyword .catch :: .mark .openParen :: .name x.name :: .mark .closeParen :: u)
  | finishes {body : Block} {u : List Terminal} :
      Derives strict .block body u → Derives strict .finalizer body (.keyword .finally :: u)
  | noCases : Derives strict .cases [] []
  | moreCases {loc : Loc} {test : Option Expr} {body : List Stmt} {rest : List Case}
      {u v w : List Terminal} :
      Derives strict .caseTest test u → Derives strict .statements body v →
      Derives strict .cases rest w →
      Derives strict .cases (.mk loc test body :: rest) (u ++ .mark .colon :: (v ++ w))
  | caseTest {test : Expr} {u : List Terminal} :
      Derives strict (.expr 0) test u →
      Derives strict .caseTest (some test) (.keyword .case :: u)
  | defaultTest : Derives strict .caseTest none [.keyword .default]
  -- Expressions
  | sequence {loc : Loc} {left right : Expr} {u v : List Terminal} :
      Derives strict (.expr 0) left u → Derives strict (.expr Grade.assignment) right v →
      Derives strict (.expr 0) (.sequence loc left right) (u ++ .mark .comma :: v)
  | assign {loc : Loc} {op : AssignOp} {target value : Expr} {u v : List Terminal} :
      Derives strict (.expr Grade.conditional) target u →
      Derives strict (.expr Grade.assignment) value v →
      -- Strictly, the operator is not one that the alternate of a conditional could take.
      (strict = true → target.isLeftSide = true) →
      Derives strict (.expr Grade.assignment) (.assign loc op target value)
        (u ++ .mark (assignMark op) :: v)
  | arrowEmpty {loc : Loc} {body : ArrowBody} {u : List Terminal} :
      Derives strict .arrowBody body u →
      Derives strict (.expr Grade.assignment) (.arrow loc .empty body)
        (.mark .openParen :: .mark .closeParen :: .mark .arrow :: u)
  | arrowGroup {loc : Loc} {inner : Expr} {body : ArrowBody} {u v : List Terminal} :
      Derives strict (.expr 0) inner u → Derives strict .arrowBody body v →
      Derives strict (.expr Grade.assignment) (.arrow loc (.group inner) body)
        (.mark .openParen :: (u ++ .mark .closeParen :: .mark .arrow :: v))
  | arrowName {loc : Loc} {x : Ident} {body : ArrowBody} {u : List Terminal} :
      Derives strict .arrowBody body u →
      Derives strict (.expr Grade.assignment) (.arrow loc (.name x) body)
        (.name x.name :: .mark .arrow :: u)
  | arrowBlock {body : Block} {u : List Terminal} :
      Derives strict .block body u → Derives strict .arrowBody (.block body) u
  | arrowValue {value : Expr} {u : List Terminal} :
      Derives strict (.expr Grade.assignment) value u → Derives strict .arrowBody (.expr value) u
  | conditional {loc : Loc} {test yes no : Expr} {u v w : List Terminal} :
      Derives strict (.expr Grade.operation) test u →
      Derives strict (.expr Grade.assignment) yes v →
      Derives strict (.expr Grade.assignment) no w →
      Derives strict (.expr Grade.conditional) (.conditional loc test yes no)
        (u ++ .mark .question :: (v ++ .mark .colon :: w))
  | operation {loc : Loc} {op : InfixOp} {left right : Expr} {u v : List Terminal} :
      Derives strict (.expr (Grade.operation + op.level)) left u →
      Derives strict (.expr (Grade.operation + op.level + 1)) right v →
      Derives strict (.expr (Grade.operation + op.level)) (.operation loc op left right)
        (u ++ .mark op.mark :: v)
  | unary {loc : Loc} {op : UnaryOp} {operand : Expr} {u : List Terminal} :
      Derives strict (.expr Grade.unary) operand u →
      Derives strict (.expr Grade.unary) (.unary loc op operand) (unaryTerminal op :: u)
  | updateBefore {loc : Loc} {op : UpdateOp} {operand : Expr} {u : List Terminal} :
      Derives strict (.expr Grade.unary) operand u →
      Derives strict (.expr Grade.unary) (.update loc op true operand)
        (.mark (updateMark op) :: u)
  | updateAfter {loc : Loc} {op : UpdateOp} {operand : Expr} {u : List Terminal} :
      Derives strict (.expr Grade.call) operand u →
      Derives strict (.expr (Grade.unary + 1)) (.update loc op false operand)
        (u ++ [.mark (updateMark op)])
  | call {loc : Loc} {callee : Expr} {args : List Expr} {u v : List Terminal} :
      Derives strict (.expr Grade.call) callee u → Derives strict .args args v →
      Derives strict (.expr Grade.call) (.call loc callee args)
        (u ++ .mark .openParen :: (v ++ [.mark .closeParen]))
  | member {loc : Loc} {object : Expr} {property : Ident} {u : List Terminal} :
      Derives strict (.expr Grade.call) object u →
      Derives strict (.expr Grade.call) (.member loc object property)
        (u ++ [.mark .dot, .name property.name])
  | index {loc : Loc} {object key : Expr} {u v : List Terminal} :
      Derives strict (.expr Grade.call) object u → Derives strict (.expr 0) key v →
      Derives strict (.expr Grade.call) (.index loc object key)
        (u ++ .mark .openBracket :: (v ++ [.mark .closeBracket]))
  | noArgs : Derives strict .args [] []
  | args {items : List Expr} {u : List Terminal} :
      Derives strict .exprs items u → Derives strict .args items u
  | oneExpr {value : Expr} {u : List Terminal} :
      Derives strict (.expr Grade.assignment) value u → Derives strict .exprs [value] u
  | moreExprs {value : Expr} {rest : List Expr} {u v : List Terminal} :
      Derives strict (.expr Grade.assignment) value u → Derives strict .exprs rest v →
      Derives strict .exprs (value :: rest) (u ++ .mark .comma :: v)
  | name {x : Ident} : Derives strict (.expr Grade.primary) (.name x) [.name x.name]
  | number {loc : Loc} {text : String} :
      Derives strict (.expr Grade.primary) (.number loc text) [.number text]
  | string {loc : Loc} {text : String} :
      Derives strict (.expr Grade.primary) (.string loc text) [.string text]
  | constant {loc : Loc} {value : Constant} :
      Derives strict (.expr Grade.primary) (.constant loc value) [.keyword value.keyword]
  | array {loc : Loc} {items : List Expr} {u : List Terminal} :
      Derives strict .args items u →
      Derives strict (.expr Grade.primary) (.array loc items)
        (.mark .openBracket :: (u ++ [.mark .closeBracket]))
  | function {loc : Loc} {params : List Ident} {body : Block} {u v : List Terminal} :
      Derives strict .params params u → Derives strict .block body v →
      Derives strict (.expr Grade.primary) (.function loc params body)
        (.keyword .function :: .mark .openParen :: (u ++ .mark .closeParen :: v))
  | group {loc : Loc} {inner : Expr} {u : List Terminal} :
      Derives strict (.expr 0) inner u →
      Derives strict (.expr Grade.primary) (.group loc inner)
        (.mark .openParen :: (u ++ [.mark .closeParen]))
  -- An expression of the next stratum is one of this stratum.
  | tighter {stratum : Nat} {value : Expr} {u : List Terminal} :
      Derives strict (.expr (stratum + 1)) value u → Derives strict (.expr stratum) value u

namespace Nonterminal

def terminals : (symbol : Nonterminal) → symbol.Tree → List Terminal
  | statements, body => stmtTerminals body
  | statement, body => body.terminals
  | declaration, item => item.terminals
  | declarators, items => declaratorTerminals items
  | initial, value => initTerminals value
  | params, xs => nameTerminals xs
  | names, xs => nameTerminals xs
  | block, body => body.terminals
  | alternative, body => elseTerminals body
  | forInit, init => forInitTerminals init
  | target, left => targetTerminals left
  | optionalExpr, value => exprOptionTerminals value
  | label, x => labelTerminals x
  | handler, clause => handlerTerminals (some clause)
  | finalizer, body => finalizerTerminals (some body)
  | cases, items => caseTerminals items
  | caseTest, test => testTerminals test
  | expr _, value => value.terminals
  | arrowBody, body => body.terminals
  | args, items => exprTerminals items
  | exprs, items => exprTerminals items

/-- A tree is well formed, and an expression holds together as tightly as its stratum demands. -/
def WellFormed : (symbol : Nonterminal) → symbol.Tree → Prop
  | statements, body => stmtsWellFormed body
  | statement, body => body.WellFormed
  | declaration, item => item.WellFormed
  | declarators, items => declaratorsWellFormed items ∧ items ≠ []
  | initial, value => initWellFormed value
  | params, _ => True
  | names, xs => xs ≠ []
  | block, body => body.WellFormed
  | alternative, body => elseWellFormed body
  | forInit, init => forInitWellFormed init
  | target, _ => True
  | optionalExpr, value => exprOptionWellFormed value
  | label, _ => True
  | handler, clause => handlerWellFormed (some clause)
  | finalizer, body => body.WellFormed
  | cases, items => casesWellFormed items
  | caseTest, test => exprOptionWellFormed test
  | expr stratum, value => value.WellFormed ∧ stratum ≤ value.grade
  | arrowBody, body => body.WellFormed
  | args, items => exprsWellFormed items
  | exprs, items => exprsWellFormed items ∧ items ≠ []

end Nonterminal

namespace Derives

variable {strict : Bool}
variable {word : List Terminal}

theorem loosen {stratum looser : Nat} {value : Expr}
    (derived : Derives strict (.expr stratum) value word) (le : looser ≤ stratum) :
    Derives strict (.expr looser) value word := by
  obtain ⟨distance, rfl⟩ := Nat.exists_eq_add_of_le le
  induction distance with
  | zero => exact derived
  | succ distance ih =>
      exact ih derived.tighter (Nat.le_add_right _ _)

theorem relax {symbol : Nonterminal} {tree : symbol.Tree}
    (derived : Derives true symbol tree word) : Derives strict symbol tree word := by
  induction derived with
  | ifStatement _ _ _ nearest test yes no => exact .ifStatement test yes no fun _ => nearest rfl
  | assign _ _ left target value => exact .assign target value fun _ => left rfl
  | _ => constructor <;> assumption

theorem ne_nil {symbol : Nonterminal} {tree : symbol.Tree}
    (derived : Derives strict symbol tree word)
    (solid : (∃ stratum, symbol = .expr stratum) ∨ symbol = .statement) : word ≠ [] := by
  induction derived with
  | blockStatement body => cases body; exact List.cons_ne_nil _ _
  | tighter _ ih => exact ih (.inl ⟨_, rfl⟩)
  | _ => simp_all

theorem declarators_ne_nil {items : List Declarator}
    (derived : Derives strict .declarators items word) : items ≠ [] := by
  cases derived <;> exact List.cons_ne_nil _ _

theorem names_ne_nil {xs : List Ident} (derived : Derives strict .names xs word) : xs ≠ [] := by
  cases derived <;> exact List.cons_ne_nil _ _

theorem exprs_ne_nil {items : List Expr} (derived : Derives strict .exprs items word) :
    items ≠ [] := by
  cases derived <;> exact List.cons_ne_nil _ _

end Derives

end LoopCapture.Concrete
