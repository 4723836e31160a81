import LoopCapture.Proofs.Concrete.Leading
import LoopCapture.Proofs.Grammar.Basic

/-!
# Strict derivations

The trees of strict derivations are the well-formed ones, and each of them derives its own terminals
and no others. Whatever the grammar derives has a strict derivation: an `else` or an assignment that
was attached too far out moves inwards.
-/

set_option autoImplicit false

namespace LoopCapture.Concrete

theorem Expr.grade_of_isLeftSide (target : Expr) (left : target.isLeftSide = true) :
    Grade.conditional ≤ target.grade := by
  unfold Expr.isLeftSide at left
  split at left
  · exact Nat.le_refl _
  · exact Nat.le_of_succ_le (of_decide_eq_true left)

namespace Derives

variable {strict : Bool}

/-- A tree derives its own terminals only. -/
theorem terminals_eq {symbol : Nonterminal} {tree : symbol.Tree} {word : List Terminal}
    (derived : Derives strict symbol tree word) : symbol.terminals tree = word := by
  induction derived with
  | moreDeclarators _ rest first_ih rest_ih =>
      simp only [Nonterminal.terminals] at first_ih rest_ih ⊢
      simp [declaratorTerminals, first_ih, rest_ih, rest.declarators_ne_nil]
  | moreNames rest ih =>
      obtain ⟨y, more, rfl⟩ := List.exists_cons_of_ne_nil rest.names_ne_nil
      simp only [Nonterminal.terminals] at ih ⊢
      simp [nameTerminals, ih]
  | moreExprs _ rest first_ih rest_ih =>
      simp only [Nonterminal.terminals] at first_ih rest_ih ⊢
      simp [exprTerminals, first_ih, rest_ih, rest.exprs_ne_nil]
  | tryCatch _ _ body_ih clause_ih =>
      simp only [Nonterminal.terminals] at body_ih clause_ih ⊢
      simp [Stmt.terminals, finalizerTerminals, body_ih, clause_ih]
  | tryCatchFinally _ _ _ body_ih clause_ih final_ih =>
      simp only [Nonterminal.terminals] at body_ih clause_ih final_ih ⊢
      simp only [Stmt.terminals, body_ih, clause_ih, final_ih]
  | _ =>
      simp_all [Nonterminal.terminals, stmtTerminals, Stmt.terminals, Declaration.terminals,
        declaratorTerminals, initTerminals, nameTerminals, Block.terminals, elseTerminals,
        forInitTerminals, targetTerminals, exprOptionTerminals, labelTerminals, handlerTerminals,
        finalizerTerminals, caseTerminals, testTerminals, Expr.terminals, ArrowHead.terminals,
        ArrowBody.terminals, exprTerminals, eachKeyword]

theorem wellFormed {symbol : Nonterminal} {tree : symbol.Tree} {word : List Terminal}
    (derived : Derives true symbol tree word) : symbol.WellFormed tree := by
  induction derived with
  | tighter _ ih =>
      exact ⟨ih.1, Nat.le_of_succ_le ih.2⟩
  | ifStatement _ _ _ nearest test_ih yes_ih no_ih => exact ⟨test_ih.1, yes_ih, no_ih, nearest rfl⟩
  | assign _ _ left target_ih value_ih =>
      exact ⟨⟨target_ih.1, left rfl, value_ih⟩, Nat.le_refl _⟩
  | operation _ _ left_ih right_ih =>
      exact ⟨⟨left_ih.1, left_ih.2, right_ih.1, right_ih.2⟩, Nat.le_refl _⟩
  | tryCatch _ _ body_ih clause_ih => exact ⟨body_ih, clause_ih, trivial, .inl rfl⟩
  | tryCatchFinally _ _ _ body_ih clause_ih final_ih =>
      exact ⟨body_ih, clause_ih, final_ih, .inl rfl⟩
  | _ =>
      simp_all [Nonterminal.WellFormed, stmtsWellFormed, Stmt.WellFormed, Declaration.WellFormed,
        declaratorsWellFormed, initWellFormed, Block.WellFormed, elseWellFormed,
        forInitWellFormed, exprOptionWellFormed, handlerWellFormed,
        finalizerWellFormed, casesWellFormed, Expr.WellFormed, ArrowHead.WellFormed,
        ArrowBody.WellFormed, exprsWellFormed, Expr.grade]

end Derives

/-! ## Well-formed trees are derived -/

theorem derives_names (xs : List Ident) (nonempty : xs ≠ []) :
    Derives true .names xs (nameTerminals xs) := by
  induction xs with
  | nil => exact absurd rfl nonempty
  | cons x rest ih =>
      cases rest with
      | nil => exact .oneName
      | cons y more => exact .moreNames (ih (List.cons_ne_nil _ _))

theorem derives_params (xs : List Ident) : Derives true .params xs (nameTerminals xs) := by
  cases xs with
  | nil => exact .noParams
  | cons x rest => exact .params (derives_names _ (List.cons_ne_nil _ _))

theorem derives_target (left : ForTarget) : Derives true .target left (targetTerminals left) := by
  cases left with
  | declared => exact .declaredTarget
  | existing => exact .existingTarget

theorem derives_label (x : Option Ident) : Derives true .label x (labelTerminals x) := by
  cases x with
  | none => exact .noLabel
  | some x => exact .label

/-- The recursion below is on the trees, so a list that may be empty is split off here. -/
theorem Derives.args_of_exprs {items : List Expr}
    (derived : items ≠ [] → Derives true .exprs items (exprTerminals items)) :
    Derives true .args items (exprTerminals items) := by
  by_cases none : items = []
  · subst none
    exact .noArgs
  · exact .args (derived none)

mutual

theorem derives_expr : ∀ {value : Expr}, value.WellFormed →
    Derives true (.expr value.grade) value value.terminals
  | .name _, _ => .name
  | .number _ _, _ => .number
  | .string _ _, _ => .string
  | .constant _ _, _ => .constant
  | .array _ _, formed => .array (.args_of_exprs fun nonempty => derives_exprs formed nonempty)
  | .function _ params _, formed => .function (derives_params params) (derives_block formed)
  | .group _ inner, formed => .group ((@derives_expr inner formed).loosen (Nat.zero_le _))
  | .arrow _ .empty _, ⟨_, body⟩ => .arrowEmpty (derives_arrowBody body)
  | .arrow _ (.name _) _, ⟨_, body⟩ => .arrowName (derives_arrowBody body)
  | .arrow _ (.group _) _, ⟨head, body⟩ => by
      have inner := (derives_expr head).loosen (Nat.zero_le _)
      simpa [Expr.terminals, ArrowHead.terminals, Expr.grade] using
        Derives.arrowGroup inner (derives_arrowBody body)
  | .sequence _ _ _, ⟨left, right, rightGrade⟩ =>
    .sequence ((derives_expr left).loosen (Nat.zero_le _)) ((derives_expr right).loosen rightGrade)
  | .assign _ _ target _, ⟨targetFormed, left, value, valueGrade⟩ =>
    .assign ((derives_expr targetFormed).loosen (target.grade_of_isLeftSide left))
      ((derives_expr value).loosen valueGrade) (fun _ => left)
  | .conditional _ _ _ _, ⟨test, testGrade, yes, yesGrade, no, noGrade⟩ =>
    .conditional ((derives_expr test).loosen testGrade) ((derives_expr yes).loosen yesGrade)
      ((derives_expr no).loosen noGrade)
  | .operation _ _ _ _, ⟨left, leftGrade, right, rightGrade⟩ =>
    .operation ((derives_expr left).loosen leftGrade) ((derives_expr right).loosen rightGrade)
  | .unary _ _ _, ⟨operand, grade⟩ => .unary ((derives_expr operand).loosen grade)
  | .update _ _ true _, ⟨operand, grade⟩ => .updateBefore ((derives_expr operand).loosen grade)
  | .update _ _ false _, ⟨operand, grade⟩ => .updateAfter ((derives_expr operand).loosen grade)
  | .call _ _ _, ⟨callee, grade, args⟩ =>
    .call ((derives_expr callee).loosen grade) (.args_of_exprs fun nonempty => derives_exprs args nonempty)
  | .member _ _ _, ⟨object, grade⟩ => .member ((derives_expr object).loosen grade)
  | .index _ _ _, ⟨object, grade, key⟩ =>
    .index ((derives_expr object).loosen grade) ((derives_expr key).loosen (Nat.zero_le _))

theorem derives_exprs : ∀ {items : List Expr}, exprsWellFormed items → items ≠ [] →
    Derives true .exprs items (exprTerminals items)
  | [], _, nonempty => absurd rfl nonempty
  | first :: rest, ⟨formed, grade, others⟩, _ => by
      have firstDerived := (derives_expr formed).loosen grade
      by_cases last : rest = []
      · subst last
        simpa [exprTerminals] using Derives.oneExpr firstDerived
      · simpa [exprTerminals, last] using Derives.moreExprs firstDerived (derives_exprs others last)

theorem derives_exprOption : ∀ {value : Option Expr}, exprOptionWellFormed value →
    Derives true .optionalExpr value (exprOptionTerminals value)
  | none, _ => .noExpr
  | some _, formed => .someExpr ((derives_expr formed).loosen (Nat.zero_le _))

theorem derives_arrowBody : ∀ {body : ArrowBody}, body.WellFormed →
    Derives true .arrowBody body body.terminals
  | .block _, formed => .arrowBlock (derives_block formed)
  | .expr _, ⟨formed, grade⟩ => .arrowValue ((derives_expr formed).loosen grade)

theorem derives_block : ∀ {body : Block}, body.WellFormed →
    Derives true .block body body.terminals
  | .mk _ _, formed => .braces (derives_stmts formed)

theorem derives_declarators : ∀ {items : List Declarator}, declaratorsWellFormed items →
    items ≠ [] → Derives true .declarators items (declaratorTerminals items)
  | [], _, nonempty => absurd rfl nonempty
  | .mk _ _ _ :: rest, ⟨formed, others⟩, _ => by
      have initial := derives_initial formed
      by_cases last : rest = []
      · subst last
        simpa [declaratorTerminals] using Derives.oneDeclarator initial
      · simpa [declaratorTerminals, last] using
          Derives.moreDeclarators initial (derives_declarators others last)

theorem derives_initial : ∀ {value : Option Expr}, initWellFormed value →
    Derives true .initial value (initTerminals value)
  | none, _ => .noInitial
  | some _, ⟨formed, grade⟩ => .initial ((derives_expr formed).loosen grade)

theorem derives_declaration : ∀ {item : Declaration}, item.WellFormed →
    Derives true .declaration item item.terminals
  | .mk _ _ _, ⟨nonempty, formed⟩ => .declares (derives_declarators formed nonempty)

theorem derives_forInit : ∀ {init : Option ForInit}, forInitWellFormed init →
    Derives true .forInit init (forInitTerminals init)
  | none, _ => .noForInit
  | some (.declaration _), formed => .forDeclaration (derives_declaration formed)
  | some (.expr _), formed => .forExpr ((derives_expr formed).loosen (Nat.zero_le _))

theorem derives_handler : ∀ {clause : CatchClause}, handlerWellFormed (some clause) →
    Derives true .handler clause (handlerTerminals (some clause))
  | .mk _ _ _, formed => .catches (derives_block formed)

theorem derives_cases : ∀ {items : List Case}, casesWellFormed items →
    Derives true .cases items (caseTerminals items)
  | [], _ => .noCases
  | .mk _ _ _ :: _, ⟨test, body, rest⟩ =>
    .moreCases (derives_test test) (derives_stmts body) (derives_cases rest)

theorem derives_test : ∀ {test : Option Expr}, exprOptionWellFormed test →
    Derives true .caseTest test (testTerminals test)
  | none, _ => .defaultTest
  | some _, formed => .caseTest ((derives_expr formed).loosen (Nat.zero_le _))

theorem derives_stmt : ∀ {body : Stmt}, body.WellFormed →
    Derives true .statement body body.terminals
  | .declaration _ _, formed => .declarationStatement (derives_declaration formed)
  | .function _ _ params _, formed =>
    .functionDeclaration (derives_params params) (derives_block formed)
  | .block _, formed => .blockStatement (derives_block formed)
  | .ifElse _ _ _ _, ⟨test, yes, no, nearest⟩ =>
    .ifStatement ((derives_expr test).loosen (Nat.zero_le _)) (derives_stmt yes) (derives_else no)
      (fun _ => nearest)
  | .forLoop _ _ _ _ _, ⟨init, test, update, body⟩ =>
    .forStatement (derives_forInit init) (derives_exprOption test) (derives_exprOption update)
      (derives_stmt body)
  | .forEach _ .keys target _ _, ⟨subject, _, body⟩ =>
    .forInStatement (derives_target target) ((derives_expr subject).loosen (Nat.zero_le _))
      (derives_stmt body)
  | .forEach _ .values target _ _, ⟨subject, grade, body⟩ =>
    .forOfStatement (derives_target target) ((derives_expr subject).loosen (grade rfl))
      (derives_stmt body)
  | .whileLoop _ _ _, ⟨test, body⟩ =>
    .whileStatement ((derives_expr test).loosen (Nat.zero_le _)) (derives_stmt body)
  | .doWhile _ _ _, ⟨body, test⟩ =>
    .doWhileStatement (derives_stmt body) ((derives_expr test).loosen (Nat.zero_le _))
  | .returns _ _, formed => .returnStatement (derives_exprOption formed)
  | .breaks _ x, _ => .breakStatement (derives_label x)
  | .continues _ x, _ => .continueStatement (derives_label x)
  | .throws _ _, formed => .throwStatement ((derives_expr formed).loosen (Nat.zero_le _))
  | .tryCatch _ _ none none, ⟨_, _, _, covered⟩ => by simp at covered
  | .tryCatch _ _ (some _) none, ⟨body, handler, _, _⟩ => by
      simpa [Stmt.terminals, finalizerTerminals] using
        Derives.tryCatch (derives_block body) (derives_handler handler)
  | .tryCatch _ _ none (some _), ⟨body, _, final, _⟩ =>
    .tryFinally (derives_block body) (.finishes (derives_block final))
  | .tryCatch _ _ (some _) (some _), ⟨body, handler, final, _⟩ =>
    .tryCatchFinally (derives_block body) (derives_handler handler) (.finishes (derives_block final))
  | .switch _ _ _, ⟨subject, items⟩ =>
    .switchStatement ((derives_expr subject).loosen (Nat.zero_le _)) (derives_cases items)
  | .labeled _ _ _, formed => .labeledStatement (derives_stmt formed)
  | .expr _ _, formed => .exprStatement ((derives_expr formed).loosen (Nat.zero_le _))
  | .empty _, _ => .emptyStatement

theorem derives_else : ∀ {body : Option Stmt}, elseWellFormed body →
    Derives true .alternative body (elseTerminals body)
  | none, _ => .noElse
  | some _, formed => .elseBranch (derives_stmt formed)

theorem derives_stmts : ∀ {body : List Stmt}, stmtsWellFormed body →
    Derives true .statements body (stmtTerminals body)
  | [], _ => .noStatements
  | _ :: _, ⟨first, rest⟩ => .moreStatements (derives_stmt first) (derives_stmts rest)

end

/-- The strict derivations of a program are its well-formed trees. -/
theorem derives_stmts_iff {body : List Stmt} {word : List Terminal} :
    Derives true .statements body word ↔ stmtsWellFormed body ∧ stmtTerminals body = word := by
  constructor
  · intro derived
    exact ⟨derived.wellFormed, derived.terminals_eq⟩
  · rintro ⟨formed, rfl⟩
    exact derives_stmts formed

/-! ## Attaching to the nearest -/

/-- An assignment operator and a value go on with an expression. The innermost alternate that can
take them does. -/
def Expr.attach (target : Expr) (op : AssignOp) (value : Expr) : Expr :=
  match target with
  | .conditional loc test yes no =>
    if no.endsInBlock then .assign loc op (.conditional loc test yes no) value
    else .conditional loc test yes (no.attach op value)
  | .assign loc other target inner => .assign loc other target (inner.attach op value)
  | .arrow loc head (.expr inner) => .arrow loc head (.expr (inner.attach op value))
  | target => .assign target.loc op target value

/-- An `else` branch goes on with a statement that takes it. -/
def Stmt.attach (body branch : Stmt) : Stmt :=
  match body with
  | .ifElse loc test yes none =>
    if yes.takesElse then .ifElse loc test (yes.attach branch) none
    else .ifElse loc test yes (some branch)
  | .ifElse loc test yes (some no) => .ifElse loc test yes (some (no.attach branch))
  | .forLoop loc init test update body => .forLoop loc init test update (body.attach branch)
  | .forEach loc kind target subject body => .forEach loc kind target subject (body.attach branch)
  | .whileLoop loc test body => .whileLoop loc test (body.attach branch)
  | .labeled loc x body => .labeled loc x (body.attach branch)
  | other => other

/-- The longer expression is well formed, and the operator and the value stand at its end. -/
theorem Expr.attach_wellFormed {op : AssignOp} {value : Expr} (valueFormed : value.WellFormed)
    (valueGrade : Grade.assignment ≤ value.grade) : ∀ {target : Expr}, target.WellFormed →
    Grade.assignment ≤ target.grade → target.endsInBlock = false →
    (target.attach op value).WellFormed ∧ Grade.assignment ≤ (target.attach op value).grade ∧
      (target.attach op value).terminals =
        target.terminals ++ .mark (assignMark op) :: value.terminals := by
  intro target formed grade open_
  fun_induction Expr.attach target op value with
  | case1 loc test yes no closed =>
      exact ⟨⟨formed, closed, valueFormed, valueGrade⟩, Nat.le_refl _, rfl⟩
  | case2 loc test yes no isOpen ih =>
      obtain ⟨testFormed, testGrade, yesFormed, yesGrade, noFormed, noGrade⟩ := formed
      obtain ⟨attached, attachedGrade, read⟩ :=
        ih noFormed noGrade (Bool.eq_false_iff.mpr isOpen)
      refine ⟨⟨testFormed, testGrade, yesFormed, yesGrade, attached, attachedGrade⟩, ?_, ?_⟩
      · exact Nat.le_succ 1
      · simp [Expr.terminals, read]
  | case3 loc other target inner ih =>
      obtain ⟨targetFormed, left, innerFormed, innerGrade⟩ := formed
      obtain ⟨attached, attachedGrade, read⟩ := ih innerFormed innerGrade open_
      refine ⟨⟨targetFormed, left, attached, attachedGrade⟩, Nat.le_refl _, ?_⟩
      simp [Expr.terminals, read]
  | case4 loc head inner ih =>
      obtain ⟨headFormed, innerFormed, innerGrade⟩ := formed
      obtain ⟨attached, attachedGrade, read⟩ := ih innerFormed innerGrade open_
      refine ⟨⟨headFormed, attached, attachedGrade⟩, Nat.le_refl _, ?_⟩
      simp [Expr.terminals, ArrowBody.terminals, read]
  | case5 target noConditional noAssign noArrow =>
      have tight : Grade.operation ≤ target.grade := by
        cases target with
        | sequence => exact absurd grade (Nat.not_succ_le_zero _)
        | assign => exact (noAssign _ _ _ _ rfl).elim
        | conditional => exact (noConditional _ _ _ _ rfl).elim
        | arrow loc head body =>
            cases body with
            | block => cases open_
            | expr => exact (noArrow _ _ _ rfl).elim
        | operation => exact Nat.le_add_right _ _
        | update loc op before operand => cases before <;> exact Nat.le_add_left _ _
        | _ => exact Nat.le_add_left _ _
      exact ⟨⟨formed, Expr.isLeftSide_of_grade tight, valueFormed, valueGrade⟩, Nat.le_refl _, rfl⟩

/-- The longer statement is well formed, and the branch stands at its end. -/
theorem Stmt.attach_wellFormed {branch : Stmt} (branchFormed : branch.WellFormed) :
    ∀ {body : Stmt}, body.WellFormed → body.takesElse = true →
    (body.attach branch).WellFormed ∧
      (body.attach branch).terminals = body.terminals ++ .keyword .else :: branch.terminals := by
  intro body formed takes
  fun_induction Stmt.attach body branch with
  | case1 loc test yes inner ih =>
      obtain ⟨testFormed, yesFormed, -, -⟩ := formed
      obtain ⟨attached, read⟩ := ih yesFormed inner
      refine ⟨⟨testFormed, attached, trivial, nofun⟩, ?_⟩
      simp [Stmt.terminals, elseTerminals, read]
  | case2 loc test yes here =>
      obtain ⟨testFormed, yesFormed, -, -⟩ := formed
      refine ⟨⟨testFormed, yesFormed, branchFormed, fun _ => Bool.eq_false_iff.mpr here⟩, ?_⟩
      simp [Stmt.terminals, elseTerminals]
  | case3 loc test yes no ih =>
      obtain ⟨testFormed, yesFormed, noFormed, nearest⟩ := formed
      obtain ⟨attached, read⟩ := ih noFormed takes
      refine ⟨⟨testFormed, yesFormed, attached, fun _ => nearest rfl⟩, ?_⟩
      simp [Stmt.terminals, elseTerminals, read]
  | case4 loc init test update body ih =>
      obtain ⟨initFormed, testFormed, updateFormed, bodyFormed⟩ := formed
      obtain ⟨attached, read⟩ := ih bodyFormed takes
      refine ⟨⟨initFormed, testFormed, updateFormed, attached⟩, ?_⟩
      simp [Stmt.terminals, read]
  | case5 loc kind target subject body ih =>
      obtain ⟨subjectFormed, subjectGrade, bodyFormed⟩ := formed
      obtain ⟨attached, read⟩ := ih bodyFormed takes
      refine ⟨⟨subjectFormed, subjectGrade, attached⟩, ?_⟩
      simp [Stmt.terminals, read]
  | case6 loc test body ih =>
      obtain ⟨testFormed, bodyFormed⟩ := formed
      obtain ⟨attached, read⟩ := ih bodyFormed takes
      refine ⟨⟨testFormed, attached⟩, ?_⟩
      simp [Stmt.terminals, read]
  | case7 loc x body ih =>
      obtain ⟨attached, read⟩ := ih formed takes
      refine ⟨attached, ?_⟩
      simp [Stmt.terminals, read]
  | case8 body noIf noIfElse noFor noForEach noWhile noLabel =>
      unfold Stmt.takesElse at takes
      split at takes
      · exact (noIf _ _ _ rfl).elim
      · exact (noIfElse _ _ _ _ rfl).elim
      · exact (noFor _ _ _ _ _ rfl).elim
      · exact (noForEach _ _ _ _ _ rfl).elim
      · exact (noWhile _ _ _ rfl).elim
      · exact (noLabel _ _ _ rfl).elim
      · cases takes

namespace Derives

variable {strict : Bool}

theorem attachAssign {op : AssignOp} {target value : Expr} {u v : List Terminal}
    (targetDerived : Derives true (.expr Grade.conditional) target u)
    (valueDerived : Derives true (.expr Grade.assignment) value v) :
    ∃ whole, Derives true (.expr Grade.assignment) whole (u ++ .mark (assignMark op) :: v) := by
  obtain ⟨targetFormed, targetGrade⟩ := targetDerived.wellFormed
  obtain ⟨valueFormed, valueGrade⟩ := valueDerived.wellFormed
  obtain rfl := targetDerived.terminals_eq
  obtain rfl := valueDerived.terminals_eq
  obtain ⟨formed, grade, read⟩ := @Expr.attach_wellFormed op value valueFormed
    valueGrade target targetFormed (Nat.le_of_succ_le targetGrade)
    (Expr.endsInBlock_of_grade targetGrade)
  exact ⟨target.attach op value, read ▸ (derives_expr formed).loosen grade⟩

theorem attachElse {test : Expr} {yes : Stmt} {no : Option Stmt} {u v w : List Terminal}
    (testDerived : Derives true (.expr 0) test u) (yesDerived : Derives true .statement yes v)
    (noDerived : Derives true .alternative no w) :
    ∃ whole, Derives true .statement whole
      (.keyword .if :: .mark .openParen :: (u ++ .mark .closeParen :: (v ++ w))) := by
  have loc : Loc := ⟨0, 0, 0, 0⟩
  by_cases nearer : no.isSome = true ∧ yes.takesElse = true
  · -- The branch before the `else` takes it, so the outer statement is left without one.
    obtain ⟨branch, rfl⟩ := Option.isSome_iff_exists.mp nearer.1
    obtain rfl := yesDerived.terminals_eq
    obtain rfl := noDerived.terminals_eq
    obtain ⟨formed, read⟩ :=
      Stmt.attach_wellFormed noDerived.wellFormed yesDerived.wellFormed nearer.2
    have inner : Derives true .statement (yes.attach branch) _ := derives_stmt formed
    rw [read] at inner
    refine ⟨.ifElse loc test (yes.attach branch) none, ?_⟩
    simpa [Nonterminal.terminals, elseTerminals] using
      @Derives.ifStatement true loc _ _ _ _ _ _ testDerived inner .noElse (fun _ => nofun)
  · refine ⟨.ifElse loc test yes no, .ifStatement testDerived yesDerived noDerived ?_⟩
    intro _ given
    exact Bool.eq_false_iff.mpr fun takes => nearer ⟨given, takes⟩

/-- Whatever is derived is derived strictly. -/
theorem exists_strict {symbol : Nonterminal} {tree : symbol.Tree} {word : List Terminal}
    (derived : Derives strict symbol tree word) : ∃ other, Derives true symbol other word := by
  have loc : Loc := ⟨0, 0, 0, 0⟩
  induction derived with
  | noStatements => exact ⟨[], .noStatements⟩
  | moreStatements _ _ firstCase restCase =>
      obtain ⟨first, firstDerived⟩ := firstCase
      obtain ⟨rest, restDerived⟩ := restCase
      exact ⟨first :: rest, .moreStatements firstDerived restDerived⟩
  | declarationStatement _ itemCase =>
      obtain ⟨item, itemDerived⟩ := itemCase
      exact ⟨.declaration loc item, .declarationStatement itemDerived⟩
  | functionDeclaration _ _ paramsCase bodyCase =>
      obtain ⟨params, paramsDerived⟩ := paramsCase
      obtain ⟨body, bodyDerived⟩ := bodyCase
      exact ⟨.function loc _ params body, .functionDeclaration paramsDerived bodyDerived⟩
  | blockStatement _ bodyCase =>
      obtain ⟨body, bodyDerived⟩ := bodyCase
      exact ⟨.block body, .blockStatement bodyDerived⟩
  | ifStatement _ _ _ _ testCase yesCase noCase =>
      obtain ⟨test, testDerived⟩ := testCase
      obtain ⟨yes, yesDerived⟩ := yesCase
      obtain ⟨no, noDerived⟩ := noCase
      exact testDerived.attachElse yesDerived noDerived
  | forStatement _ _ _ _ initCase testCase updateCase bodyCase =>
      obtain ⟨init, initDerived⟩ := initCase
      obtain ⟨test, testDerived⟩ := testCase
      obtain ⟨update, updateDerived⟩ := updateCase
      obtain ⟨body, bodyDerived⟩ := bodyCase
      exact ⟨.forLoop loc init test update body, .forStatement initDerived testDerived updateDerived bodyDerived⟩
  | forInStatement _ _ _ targetCase subjectCase bodyCase =>
      obtain ⟨target, targetDerived⟩ := targetCase
      obtain ⟨subject, subjectDerived⟩ := subjectCase
      obtain ⟨body, bodyDerived⟩ := bodyCase
      exact ⟨.forEach loc .keys target subject body, .forInStatement targetDerived subjectDerived bodyDerived⟩
  | forOfStatement _ _ _ targetCase subjectCase bodyCase =>
      obtain ⟨target, targetDerived⟩ := targetCase
      obtain ⟨subject, subjectDerived⟩ := subjectCase
      obtain ⟨body, bodyDerived⟩ := bodyCase
      exact ⟨.forEach loc .values target subject body, .forOfStatement targetDerived subjectDerived bodyDerived⟩
  | whileStatement _ _ testCase bodyCase =>
      obtain ⟨test, testDerived⟩ := testCase
      obtain ⟨body, bodyDerived⟩ := bodyCase
      exact ⟨.whileLoop loc test body, .whileStatement testDerived bodyDerived⟩
  | doWhileStatement _ _ bodyCase testCase =>
      obtain ⟨body, bodyDerived⟩ := bodyCase
      obtain ⟨test, testDerived⟩ := testCase
      exact ⟨.doWhile loc body test, .doWhileStatement bodyDerived testDerived⟩
  | returnStatement _ valueCase =>
      obtain ⟨value, valueDerived⟩ := valueCase
      exact ⟨.returns loc value, .returnStatement valueDerived⟩
  | breakStatement _ xCase =>
      obtain ⟨x, xDerived⟩ := xCase
      exact ⟨.breaks loc x, .breakStatement xDerived⟩
  | continueStatement _ xCase =>
      obtain ⟨x, xDerived⟩ := xCase
      exact ⟨.continues loc x, .continueStatement xDerived⟩
  | throwStatement _ valueCase =>
      obtain ⟨value, valueDerived⟩ := valueCase
      exact ⟨.throws loc value, .throwStatement valueDerived⟩
  | tryCatch _ _ bodyCase clauseCase =>
      obtain ⟨body, bodyDerived⟩ := bodyCase
      obtain ⟨clause, clauseDerived⟩ := clauseCase
      exact ⟨.tryCatch loc body (some clause) none, .tryCatch bodyDerived clauseDerived⟩
  | tryFinally _ _ bodyCase finalCase =>
      obtain ⟨body, bodyDerived⟩ := bodyCase
      obtain ⟨final, finalDerived⟩ := finalCase
      exact ⟨.tryCatch loc body none (some final), .tryFinally bodyDerived finalDerived⟩
  | tryCatchFinally _ _ _ bodyCase clauseCase finalCase =>
      obtain ⟨body, bodyDerived⟩ := bodyCase
      obtain ⟨clause, clauseDerived⟩ := clauseCase
      obtain ⟨final, finalDerived⟩ := finalCase
      exact ⟨.tryCatch loc body (some clause) (some final), .tryCatchFinally bodyDerived clauseDerived finalDerived⟩
  | switchStatement _ _ subjectCase itemsCase =>
      obtain ⟨subject, subjectDerived⟩ := subjectCase
      obtain ⟨items, itemsDerived⟩ := itemsCase
      exact ⟨.switch loc subject items, .switchStatement subjectDerived itemsDerived⟩
  | labeledStatement _ bodyCase =>
      obtain ⟨body, bodyDerived⟩ := bodyCase
      exact ⟨.labeled loc _ body, .labeledStatement bodyDerived⟩
  | exprStatement _ valueCase =>
      obtain ⟨value, valueDerived⟩ := valueCase
      exact ⟨.expr loc value, .exprStatement valueDerived⟩
  | emptyStatement => exact ⟨.empty loc, .emptyStatement⟩
  | declares _ itemsCase =>
      obtain ⟨items, itemsDerived⟩ := itemsCase
      exact ⟨.mk loc _ items, .declares itemsDerived⟩
  | oneDeclarator _ valueCase =>
      obtain ⟨value, valueDerived⟩ := valueCase
      exact ⟨[.mk loc _ value], .oneDeclarator valueDerived⟩
  | moreDeclarators _ _ valueCase restCase =>
      obtain ⟨value, valueDerived⟩ := valueCase
      obtain ⟨rest, restDerived⟩ := restCase
      exact ⟨.mk loc _ value :: rest, .moreDeclarators valueDerived restDerived⟩
  | noInitial => exact ⟨none, .noInitial⟩
  | initial _ valueCase =>
      obtain ⟨value, valueDerived⟩ := valueCase
      exact ⟨some value, .initial valueDerived⟩
  | noParams => exact ⟨[], .noParams⟩
  | params _ namesCase =>
      obtain ⟨names, namesDerived⟩ := namesCase
      exact ⟨names, .params namesDerived⟩
  | oneName => exact ⟨[_], .oneName⟩
  | moreNames _ restCase =>
      obtain ⟨rest, restDerived⟩ := restCase
      exact ⟨_ :: rest, .moreNames restDerived⟩
  | braces _ bodyCase =>
      obtain ⟨body, bodyDerived⟩ := bodyCase
      exact ⟨.mk loc body, .braces bodyDerived⟩
  | noElse => exact ⟨none, .noElse⟩
  | elseBranch _ bodyCase =>
      obtain ⟨body, bodyDerived⟩ := bodyCase
      exact ⟨some body, .elseBranch bodyDerived⟩
  | noForInit => exact ⟨none, .noForInit⟩
  | forDeclaration _ itemCase =>
      obtain ⟨item, itemDerived⟩ := itemCase
      exact ⟨some (.declaration item), .forDeclaration itemDerived⟩
  | forExpr _ valueCase =>
      obtain ⟨value, valueDerived⟩ := valueCase
      exact ⟨some (.expr value), .forExpr valueDerived⟩
  | declaredTarget => exact ⟨.declared loc _ _, .declaredTarget⟩
  | existingTarget => exact ⟨.existing _, .existingTarget⟩
  | noExpr => exact ⟨none, .noExpr⟩
  | someExpr _ valueCase =>
      obtain ⟨value, valueDerived⟩ := valueCase
      exact ⟨some value, .someExpr valueDerived⟩
  | noLabel => exact ⟨none, .noLabel⟩
  | label => exact ⟨some _, .label⟩
  | catches _ bodyCase =>
      obtain ⟨body, bodyDerived⟩ := bodyCase
      exact ⟨.mk loc _ body, .catches bodyDerived⟩
  | finishes _ bodyCase =>
      obtain ⟨body, bodyDerived⟩ := bodyCase
      exact ⟨body, .finishes bodyDerived⟩
  | noCases => exact ⟨[], .noCases⟩
  | moreCases _ _ _ testCase bodyCase restCase =>
      obtain ⟨test, testDerived⟩ := testCase
      obtain ⟨body, bodyDerived⟩ := bodyCase
      obtain ⟨rest, restDerived⟩ := restCase
      exact ⟨.mk loc test body :: rest, .moreCases testDerived bodyDerived restDerived⟩
  | caseTest _ testCase =>
      obtain ⟨test, testDerived⟩ := testCase
      exact ⟨some test, .caseTest testDerived⟩
  | defaultTest => exact ⟨none, .defaultTest⟩
  | tighter _ valueCase =>
      obtain ⟨value, valueDerived⟩ := valueCase
      exact ⟨value, .tighter valueDerived⟩
  | sequence _ _ leftCase rightCase =>
      obtain ⟨left, leftDerived⟩ := leftCase
      obtain ⟨right, rightDerived⟩ := rightCase
      exact ⟨.sequence loc left right, .sequence leftDerived rightDerived⟩
  | assign _ _ _ targetCase valueCase =>
      obtain ⟨target, targetDerived⟩ := targetCase
      obtain ⟨value, valueDerived⟩ := valueCase
      exact targetDerived.attachAssign valueDerived
  | arrowEmpty _ bodyCase =>
      obtain ⟨body, bodyDerived⟩ := bodyCase
      exact ⟨.arrow loc .empty body, .arrowEmpty bodyDerived⟩
  | arrowGroup _ _ innerCase bodyCase =>
      obtain ⟨inner, innerDerived⟩ := innerCase
      obtain ⟨body, bodyDerived⟩ := bodyCase
      exact ⟨.arrow loc (.group inner) body, .arrowGroup innerDerived bodyDerived⟩
  | arrowName _ bodyCase =>
      obtain ⟨body, bodyDerived⟩ := bodyCase
      exact ⟨.arrow loc (.name _) body, .arrowName bodyDerived⟩
  | arrowBlock _ bodyCase =>
      obtain ⟨body, bodyDerived⟩ := bodyCase
      exact ⟨.block body, .arrowBlock bodyDerived⟩
  | arrowValue _ valueCase =>
      obtain ⟨value, valueDerived⟩ := valueCase
      exact ⟨.expr value, .arrowValue valueDerived⟩
  | conditional _ _ _ testCase yesCase noCase =>
      obtain ⟨test, testDerived⟩ := testCase
      obtain ⟨yes, yesDerived⟩ := yesCase
      obtain ⟨no, noDerived⟩ := noCase
      exact ⟨.conditional loc test yes no, .conditional testDerived yesDerived noDerived⟩
  | operation _ _ leftCase rightCase =>
      obtain ⟨left, leftDerived⟩ := leftCase
      obtain ⟨right, rightDerived⟩ := rightCase
      exact ⟨.operation loc _ left right, .operation leftDerived rightDerived⟩
  | unary _ operandCase =>
      obtain ⟨operand, operandDerived⟩ := operandCase
      exact ⟨.unary loc _ operand, .unary operandDerived⟩
  | updateBefore _ operandCase =>
      obtain ⟨operand, operandDerived⟩ := operandCase
      exact ⟨.update loc _ true operand, .updateBefore operandDerived⟩
  | updateAfter _ operandCase =>
      obtain ⟨operand, operandDerived⟩ := operandCase
      exact ⟨.update loc _ false operand, .updateAfter operandDerived⟩
  | call _ _ calleeCase argsCase =>
      obtain ⟨callee, calleeDerived⟩ := calleeCase
      obtain ⟨args, argsDerived⟩ := argsCase
      exact ⟨.call loc callee args, .call calleeDerived argsDerived⟩
  | member _ objectCase =>
      obtain ⟨object, objectDerived⟩ := objectCase
      exact ⟨.member loc object _, .member objectDerived⟩
  | index _ _ objectCase keyCase =>
      obtain ⟨object, objectDerived⟩ := objectCase
      obtain ⟨key, keyDerived⟩ := keyCase
      exact ⟨.index loc object key, .index objectDerived keyDerived⟩
  | noArgs => exact ⟨[], .noArgs⟩
  | args _ itemsCase =>
      obtain ⟨items, itemsDerived⟩ := itemsCase
      exact ⟨items, .args itemsDerived⟩
  | oneExpr _ valueCase =>
      obtain ⟨value, valueDerived⟩ := valueCase
      exact ⟨[value], .oneExpr valueDerived⟩
  | moreExprs _ _ valueCase restCase =>
      obtain ⟨value, valueDerived⟩ := valueCase
      obtain ⟨rest, restDerived⟩ := restCase
      exact ⟨value :: rest, .moreExprs valueDerived restDerived⟩
  | name => exact ⟨.name _, .name⟩
  | number => exact ⟨.number loc _, .number⟩
  | string => exact ⟨.string loc _, .string⟩
  | constant => exact ⟨.constant loc _, .constant⟩
  | array _ itemsCase =>
      obtain ⟨items, itemsDerived⟩ := itemsCase
      exact ⟨.array loc items, .array itemsDerived⟩
  | function _ _ paramsCase bodyCase =>
      obtain ⟨params, paramsDerived⟩ := paramsCase
      obtain ⟨body, bodyDerived⟩ := bodyCase
      exact ⟨.function loc params body, .function paramsDerived bodyDerived⟩
  | group _ innerCase =>
      obtain ⟨inner, innerDerived⟩ := innerCase
      exact ⟨.group loc inner, .group innerDerived⟩

end Derives

end LoopCapture.Concrete
