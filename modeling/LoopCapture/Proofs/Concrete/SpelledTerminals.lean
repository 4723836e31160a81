import LoopCapture.Proofs.Concrete.Spelling

/-!
# Spelled tokens carry the terminals of the tree
-/

set_option autoImplicit false

namespace LoopCapture.Concrete

abbrev terminalsOf (tokens : List Token) : List Terminal := tokens.map Token.terminal

theorem terminals_names {tokens rest : List Token} : ∀ {names : List Ident},
    namesSpell names tokens rest → terminalsOf tokens = nameTerminals names ++ terminalsOf rest
  | [], spelled => congrArg terminalsOf spelled
  | [x], spelled => congrArg terminalsOf spelled
  | x :: y :: more, spelled => by
      obtain ⟨comma, between, rfl, othersSpelled⟩ := spelled
      simp [nameTerminals, terminals_names othersSpelled]

theorem terminals_target {target : ForTarget} {tokens rest : List Token}
    (spelled : targetSpells target tokens rest) :
    terminalsOf tokens = targetTerminals target ++ terminalsOf rest := by
  cases target with
  | declared loc kind x =>
      obtain ⟨first, rfl, -⟩ := spelled
      rfl
  | existing x =>
      obtain rfl : tokens = _ := spelled
      rfl

theorem terminals_label {label : Option Ident} {tokens rest : List Token}
    (spelled : labelSpells label tokens rest) :
    terminalsOf tokens = labelTerminals label ++ terminalsOf rest := by
  cases label with
  | none =>
      obtain rfl : tokens = rest := spelled
      rfl
  | some x =>
      obtain rfl : tokens = _ := spelled
      rfl

mutual

theorem terminals_expr {tokens rest : List Token} : ∀ {value : Expr},
    value.Spells tokens rest → terminalsOf tokens = value.terminals ++ terminalsOf rest
  | .name x, spelled => congrArg terminalsOf spelled
  | .number loc text, spelled => congrArg terminalsOf spelled
  | .string loc text, spelled => congrArg terminalsOf spelled
  | .constant loc value, spelled => congrArg terminalsOf spelled
  | .array loc items, spelled => by
      obtain ⟨first, last, inner, rfl, itemsSpelled, -⟩ := spelled
      simp [Expr.terminals, terminals_exprs itemsSpelled]
  | .function loc params body, spelled => by
      obtain ⟨first, opened, closed, inner, after, rfl, named, bodySpelled, -⟩ := spelled
      simp [Expr.terminals, terminals_names named, terminals_block bodySpelled]
  | .group loc inner, spelled => by
      obtain ⟨first, last, between, rfl, innerSpelled, -⟩ := spelled
      simp [Expr.terminals, terminals_expr innerSpelled]
  | .arrow loc head body, spelled => by
      obtain ⟨start, arrow, after, headSpelled, bodySpelled, -⟩ := spelled
      simp [Expr.terminals, terminals_arrowHead headSpelled, terminals_arrowBody bodySpelled]
  | .sequence loc left right, spelled => by
      obtain ⟨comma, between, leftSpelled, rightSpelled, -⟩ := spelled
      simp [Expr.terminals, terminals_expr leftSpelled, terminals_expr rightSpelled]
  | .assign loc op target value, spelled => by
      obtain ⟨sign, between, targetSpelled, valueSpelled, -⟩ := spelled
      simp [Expr.terminals, terminals_expr targetSpelled, terminals_expr valueSpelled]
  | .conditional loc test yes no, spelled => by
      obtain ⟨question, colon, between, after, testSpelled, yesSpelled, noSpelled, -⟩ := spelled
      simp [Expr.terminals, terminals_expr testSpelled, terminals_expr yesSpelled,
        terminals_expr noSpelled]
  | .operation loc op left right, spelled => by
      obtain ⟨sign, between, leftSpelled, rightSpelled, -⟩ := spelled
      simp [Expr.terminals, terminals_expr leftSpelled, terminals_expr rightSpelled]
  | .unary loc op operand, spelled => by
      obtain ⟨sign, between, rfl, operandSpelled, -⟩ := spelled
      simp [Expr.terminals, terminals_expr operandSpelled]
  | .update loc op true operand, spelled => by
      obtain ⟨sign, between, rfl, operandSpelled, -⟩ := spelled
      simp [Expr.terminals, terminals_expr operandSpelled]
  | .update loc op false operand, spelled => by
      obtain ⟨sign, operandSpelled, -⟩ := spelled
      simp [Expr.terminals, terminals_expr operandSpelled]
  | .call loc callee args, spelled => by
      obtain ⟨opened, last, between, calleeSpelled, argsSpelled, -⟩ := spelled
      simp [Expr.terminals, terminals_expr calleeSpelled, terminals_exprs argsSpelled]
  | .member loc object property, spelled => by
      obtain ⟨dot, between, objectSpelled, rfl, -⟩ := spelled
      simp [Expr.terminals, terminals_expr objectSpelled]
  | .index loc object key, spelled => by
      obtain ⟨opened, last, between, objectSpelled, keySpelled, -⟩ := spelled
      simp [Expr.terminals, terminals_expr objectSpelled, terminals_expr keySpelled]

theorem terminals_exprs {tokens rest : List Token} : ∀ {items : List Expr},
    exprsSpell items tokens rest → terminalsOf tokens = exprTerminals items ++ terminalsOf rest
  | [], spelled => congrArg terminalsOf spelled
  | first :: more, spelled => by
      cases more with
      | nil =>
          have firstSpelled : first.Spells tokens rest := spelled
          simp [exprTerminals, terminals_expr firstSpelled]
      | cons second others =>
          obtain ⟨comma, between, firstSpelled, othersSpelled⟩ := spelled
          simp [exprTerminals, terminals_expr firstSpelled, terminals_exprs othersSpelled]

theorem terminals_exprOption {tokens rest : List Token} : ∀ {value : Option Expr},
    exprOptionSpells value tokens rest →
    terminalsOf tokens = exprOptionTerminals value ++ terminalsOf rest
  | none, spelled => congrArg terminalsOf spelled
  | some _, spelled => terminals_expr spelled

theorem terminals_arrowHead {start : Loc} {tokens rest : List Token} : ∀ {head : ArrowHead},
    head.Spells start tokens rest → terminalsOf tokens = head.terminals ++ terminalsOf rest
  | .empty, spelled => by
      obtain ⟨closed, rfl⟩ := spelled
      rfl
  | .name x, spelled => by
      obtain ⟨rfl, -⟩ := spelled
      rfl
  | .group inner, spelled => by
      obtain ⟨closed, between, rfl, innerSpelled⟩ := spelled
      simp [ArrowHead.terminals, terminals_expr innerSpelled]

theorem terminals_arrowBody {tokens rest : List Token} : ∀ {body : ArrowBody},
    body.Spells tokens rest → terminalsOf tokens = body.terminals ++ terminalsOf rest
  | .block _, spelled => terminals_block spelled
  | .expr _, spelled => terminals_expr spelled

theorem terminals_block {tokens rest : List Token} : ∀ {body : Block},
    body.Spells tokens rest → terminalsOf tokens = body.terminals ++ terminalsOf rest
  | .mk loc body, spelled => by
      obtain ⟨first, last, inner, rfl, bodySpelled, -⟩ := spelled
      simp [Block.terminals, terminals_stmts bodySpelled]

theorem terminals_declarators {tokens rest : List Token} : ∀ {items : List Declarator},
    declaratorsSpell items tokens rest →
    terminalsOf tokens = declaratorTerminals items ++ terminalsOf rest
  | [], spelled => congrArg terminalsOf spelled
  | .mk loc x init :: more, spelled => by
      obtain ⟨between, rfl, tail⟩ := spelled
      cases more with
      | nil =>
          have initSpelled : initSpells x loc init between rest := tail
          simp [declaratorTerminals, terminals_init initSpelled]
      | cons second others =>
          obtain ⟨comma, after, initSpelled, othersSpelled⟩ := tail
          simp [declaratorTerminals, terminals_init initSpelled,
            terminals_declarators othersSpelled]

theorem terminals_init {x : Ident} {loc : Loc} {tokens rest : List Token} : ∀ {init : Option Expr},
    initSpells x loc init tokens rest →
      terminalsOf tokens = initTerminals init ++ terminalsOf rest
  | none, spelled => by
      obtain ⟨rfl, -⟩ := spelled
      rfl
  | some value, spelled => by
      obtain ⟨sign, between, rfl, valueSpelled, -⟩ := spelled
      simp [initTerminals, terminals_expr valueSpelled]

theorem terminals_declaration {tokens rest : List Token} : ∀ {item : Declaration},
    item.Spells tokens rest → terminalsOf tokens = item.terminals ++ terminalsOf rest
  | .mk loc kind declarators, spelled => by
      obtain ⟨first, between, rfl, itemsSpelled, -⟩ := spelled
      simp [Declaration.terminals, terminals_declarators itemsSpelled]

theorem terminals_forInit {tokens rest : List Token} : ∀ {init : Option ForInit},
    forInitSpells init tokens rest → terminalsOf tokens = forInitTerminals init ++ terminalsOf rest
  | none, spelled => congrArg terminalsOf spelled
  | some (.declaration _), spelled => terminals_declaration spelled
  | some (.expr _), spelled => terminals_expr spelled

theorem terminals_handler {tokens rest : List Token} : ∀ {handler : Option CatchClause},
    handlerSpells handler tokens rest →
    terminalsOf tokens = handlerTerminals handler ++ terminalsOf rest
  | none, spelled => congrArg terminalsOf spelled
  | some (.mk loc param body), spelled => by
      obtain ⟨first, opened, closed, after, rfl, bodySpelled, -⟩ := spelled
      simp [handlerTerminals, terminals_block bodySpelled]

theorem terminals_finalizer {tokens rest : List Token} : ∀ {finalizer : Option Block},
    finalizerSpells finalizer tokens rest →
    terminalsOf tokens = finalizerTerminals finalizer ++ terminalsOf rest
  | none, spelled => congrArg terminalsOf spelled
  | some body, spelled => by
      obtain ⟨word, between, rfl, bodySpelled⟩ := spelled
      simp [finalizerTerminals, terminals_block bodySpelled]

theorem terminals_cases {tokens rest : List Token} : ∀ {items : List Case},
    casesSpell items tokens rest → terminalsOf tokens = caseTerminals items ++ terminalsOf rest
  | [], spelled => congrArg terminalsOf spelled
  | .mk loc test body :: more, spelled => by
      obtain ⟨first, colon, between, after, testSpelled, bodySpelled, moreSpelled, -⟩ := spelled
      simp [caseTerminals, terminals_test testSpelled, terminals_stmts bodySpelled,
        terminals_cases moreSpelled]

theorem terminals_test {first : Loc} {tokens rest : List Token} : ∀ {test : Option Expr},
    testSpells first test tokens rest → terminalsOf tokens = testTerminals test ++ terminalsOf rest
  | none, spelled => congrArg terminalsOf spelled
  | some test, spelled => by
      obtain ⟨between, rfl, testSpelled⟩ := spelled
      simp [testTerminals, terminals_expr testSpelled]

theorem terminals_stmt {tokens rest : List Token} : ∀ {stmt : Stmt},
    stmt.Spells tokens rest → terminalsOf tokens = stmt.terminals ++ terminalsOf rest
  | .declaration loc item, spelled => by
      obtain ⟨last, itemSpelled, -⟩ := spelled
      simp [Stmt.terminals, terminals_declaration itemSpelled]
  | .function loc name params body, spelled => by
      obtain ⟨first, opened, closed, inner, after, rfl, named, bodySpelled, -⟩ := spelled
      simp [Stmt.terminals, terminals_names named, terminals_block bodySpelled]
  | .block _, spelled => terminals_block spelled
  | .ifElse loc test yes no, spelled => by
      obtain ⟨first, opened, closed, inner, after, between, rfl, testSpelled, yesSpelled,
        noSpelled, -⟩ := spelled
      simp [Stmt.terminals, terminals_expr testSpelled, terminals_stmt yesSpelled,
        terminals_else noSpelled]
  | .forLoop loc init test update body, spelled => by
      obtain ⟨first, opened, one, two, closed, start, middle, last, after, rfl, initSpelled,
        testSpelled, updateSpelled, bodySpelled, -⟩ := spelled
      simp [Stmt.terminals, terminals_forInit initSpelled, terminals_exprOption testSpelled,
        terminals_exprOption updateSpelled, terminals_stmt bodySpelled]
  | .forEach loc kind target subject body, spelled => by
      obtain ⟨first, opened, word, closed, start, middle, after, rfl, targetSpelled,
        subjectSpelled, bodySpelled, -⟩ := spelled
      simp [Stmt.terminals, terminals_target targetSpelled, terminals_expr subjectSpelled,
        terminals_stmt bodySpelled]
  | .whileLoop loc test body, spelled => by
      obtain ⟨first, opened, closed, inner, after, rfl, testSpelled, bodySpelled, -⟩ := spelled
      simp [Stmt.terminals, terminals_expr testSpelled, terminals_stmt bodySpelled]
  | .doWhile loc body test, spelled => by
      obtain ⟨first, word, opened, closed, last, inner, after, rfl, bodySpelled, testSpelled, -⟩ :=
        spelled
      simp [Stmt.terminals, terminals_expr testSpelled, terminals_stmt bodySpelled]
  | .returns loc value, spelled => by
      obtain ⟨first, last, inner, rfl, valueSpelled, -⟩ := spelled
      simp [Stmt.terminals, terminals_exprOption valueSpelled]
  | .breaks loc label, spelled => by
      obtain ⟨first, last, inner, rfl, labelSpelled, -⟩ := spelled
      simp [Stmt.terminals, terminals_label labelSpelled]
  | .continues loc label, spelled => by
      obtain ⟨first, last, inner, rfl, labelSpelled, -⟩ := spelled
      simp [Stmt.terminals, terminals_label labelSpelled]
  | .throws loc value, spelled => by
      obtain ⟨first, last, inner, rfl, valueSpelled, -⟩ := spelled
      simp [Stmt.terminals, terminals_expr valueSpelled]
  | .tryCatch loc body handler finalizer, spelled => by
      obtain ⟨first, inner, between, after, rfl, bodySpelled, handlerSpelled, finalSpelled, -⟩ :=
        spelled
      simp [Stmt.terminals, terminals_block bodySpelled, terminals_handler handlerSpelled,
        terminals_finalizer finalSpelled]
  | .switch loc subject cases, spelled => by
      obtain ⟨first, opened, closed, brace, last, inner, after, rfl, subjectSpelled, casesSpelled,
        -⟩ := spelled
      simp [Stmt.terminals, terminals_expr subjectSpelled, terminals_cases casesSpelled]
  | .labeled loc label body, spelled => by
      obtain ⟨colon, after, rfl, bodySpelled, -⟩ := spelled
      simp [Stmt.terminals, terminals_stmt bodySpelled]
  | .expr loc value, spelled => by
      obtain ⟨last, valueSpelled, -⟩ := spelled
      simp [Stmt.terminals, terminals_expr valueSpelled]
  | .empty loc, spelled => congrArg terminalsOf spelled

theorem terminals_else {tokens rest : List Token} : ∀ {no : Option Stmt},
    elseSpells no tokens rest → terminalsOf tokens = elseTerminals no ++ terminalsOf rest
  | none, spelled => congrArg terminalsOf spelled
  | some body, spelled => by
      obtain ⟨word, between, rfl, bodySpelled⟩ := spelled
      simp [elseTerminals, terminals_stmt bodySpelled]

theorem terminals_stmts {tokens rest : List Token} : ∀ {body : List Stmt},
    stmtsSpell body tokens rest → terminalsOf tokens = stmtTerminals body ++ terminalsOf rest
  | [], spelled => congrArg terminalsOf spelled
  | first :: more, spelled => by
      obtain ⟨between, firstSpelled, moreSpelled⟩ := spelled
      simp [stmtTerminals, terminals_stmt firstSpelled, terminals_stmts moreSpelled]

end

end LoopCapture.Concrete
