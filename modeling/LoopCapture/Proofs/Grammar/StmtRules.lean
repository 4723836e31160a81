import LoopCapture.Proofs.Grammar.ExprRules

/-!
# The rules for statements predict the grammar
-/

set_option autoImplicit false

namespace LoopCapture.Concrete

open Parser (Result)

/-- The words of statements that start with the given terminals. -/
abbrev StatementFrom (before : List Terminal) (stmt : Stmt) (word : List Terminal) : Prop :=
  Derived .statement stmt (before ++ word)

def forExprRule (grammar : Grammar) (start : Loc) : Parser Stmt := do
  forLoopRule grammar start (some (.expr (← grammar .expr)))

/-- A `for` loop whose header starts with an expression or with a semicolon. -/
def forPlainRule (grammar : Grammar) (start : Loc) : Parser Stmt := do
  if ← Parser.atMark .semicolon then forLoopRule grammar start none
  else forExprRule grammar start

/-- The rest of a `for` loop that declares nothing, after the opening parenthesis. -/
def forOpenRule (grammar : Grammar) (start : Loc) : Parser Stmt := do
  match ← get with
  | ⟨.name text, loc⟩ :: rest@(second :: afterSecond) =>
    match eachKind second.terminal with
    | some each =>
      set afterSecond
      forEachRule grammar start each (.existing ⟨text, loc⟩)
    | none =>
      set (⟨.name text, loc⟩ :: rest)
      forExprRule grammar start
  | _ => forPlainRule grammar start

/-! ## Statements after their reserved word -/

def declarationRest (grammar : Grammar) (start : Loc) (kind : DeclKind) : Parser Stmt := do
  let declaration := declarationOf start kind (← grammar .declarators)
  let stop ← Parser.mark .semicolon
  return .declaration (start.upTo stop) declaration

def returnRest (grammar : Grammar) (start : Loc) : Parser Stmt := do
  let value ← exprUnless grammar .semicolon
  let stop ← Parser.mark .semicolon
  return .returns (start.upTo stop) value

def throwRest (grammar : Grammar) (start : Loc) : Parser Stmt := do
  let (value, stop) ← exprSemicolon grammar
  return .throws (start.upTo stop) value

def breakRest (start : Loc) : Parser Stmt := do
  let (label, stop) ← jumpRest
  return .breaks (start.upTo stop) label

def continueRest (start : Loc) : Parser Stmt := do
  let (label, stop) ← jumpRest
  return .continues (start.upTo stop) label

def labeledRest (grammar : Grammar) (label : Ident) : Parser Stmt := do
  let body ← grammar .statement
  return .labeled (label.loc.upTo body.loc) label body

def blockStatement (grammar : Grammar) : Parser Stmt := do
  return .block (← grammar .block)

namespace Grammar.Predicts

variable {bound slack : Nat} {shallow deep : Grammar}
  (predicts : Grammar.Predicts bound shallow deep)

include predicts

/-! ## Declarations -/

theorem namesRule : predicts.Rule 0 namesRule (Derived .names) := by
  refine .ident_bind fun first => ?_
  refine .mark?_bind ?_ ?_
  · refine predicts.names.bind (by omega) fun rest taken derived => .pure ?_
    simpa using Derives.moreNames derived
  · exact .pure .oneName

theorem declaratorRest (name : Ident) (enough : 8 ≤ slack) :
    predicts.Rule slack (declaratorRest · name)
      fun declarator word => ∃ loc value, declarator = .mk loc name value ∧
        Derived .initial value word := by
  refine .mark?_bind ?_ ?_
  · refine predicts.assignExpr.bind (by omega) fun value taken derived => .pure ?_
    rw [List.append_nil]
    exact ⟨_, _, rfl, .initial derived⟩
  · exact .pure ⟨_, _, rfl, .noInitial⟩

/-- Declarators from the first one on, whose name and value have been taken. -/
theorem declaratorsFrom {loc : Loc} {name : Ident} {value : Option Expr} {initial : List Terminal}
    (derived : Derived .initial value initial) (enough : 1 ≤ slack + 8) :
    predicts.Rule slack (declaratorsFrom · (.mk loc name value))
      fun items word => Derived .declarators items (.name name.name :: (initial ++ word)) := by
  refine .mark?_bind ?_ ?_
  · refine predicts.declarators.bind enough fun rest taken restDerived => .pure ?_
    rw [List.append_nil]
    exact .moreDeclarators derived restDerived
  · refine .pure ?_
    rw [List.append_nil]
    exact .oneDeclarator derived

/-- Declarators after the first name. -/
theorem declaratorsAfter (name : Ident) (enough : 8 ≤ slack) :
    predicts.Rule slack (fun grammar => do
        Concrete.declaratorsFrom grammar (← Concrete.declaratorRest grammar name))
      fun items word => Derived .declarators items (.name name.name :: word) := by
  refine (predicts.declaratorRest name enough).bind (Nat.le_refl _) fun first taken known => ?_
  obtain ⟨loc, value, rfl, derived⟩ := known
  exact predicts.declaratorsFrom derived (by omega)

theorem declaratorsRule : predicts.Rule 0 declaratorsRule (Derived .declarators) := by
  refine .ident_bind fun name => ?_
  exact predicts.declaratorsAfter name (by omega)

/-! ## Blocks -/

theorem blockRule : predicts.Rule 0 blockRule (Derived .block) := by
  refine .mark_bind fun start => ?_
  refine (predicts.statements .block).bind (by omega) fun body taken derived => ?_
  refine .mark_bind fun stop => .pure ?_
  exact .braces derived

theorem statementsRule (until_ : ListEnd) :
    predicts.Rule 4 (statementsRule · until_) (Derived .statements) := by
  refine .peek?_bind fun next => ?_
  cases until_.stops next with
  | true => exact .pure .noStatements
  | false =>
      refine predicts.statement.bind (Nat.le_refl _) fun first taken derived => ?_
      have some : 0 < taken.length := List.length_pos_iff.mpr (derived.ne_nil (.inr rfl))
      refine (predicts.statements until_).bind (by omega) fun rest others restDerived => ?_
      refine .pure ?_
      rw [List.append_nil]
      exact .moreStatements derived restDerived

/-! ## Parts in parentheses -/

theorem exprSemicolon (enough : 3 ≤ slack) : predicts.Rule slack exprSemicolon
      fun result word => ∃ value, word = value ++ [.mark .semicolon] ∧
        Derived (.expr 0) result.1 value := by
  refine predicts.expr.bind enough fun value taken derived => ?_
  refine .mark_bind fun stop => .pure ?_
  exact ⟨taken, rfl, derived⟩

theorem parenthesized : predicts.Rule slack parenthesized
    fun value word => 1 ≤ word.length ∧ ∃ inner,
      word = .mark .openParen :: (inner ++ [.mark .closeParen]) ∧
      Derived (.expr 0) value inner := by
  refine .mark_bind fun opened => ?_
  refine predicts.expr.bind (by omega) fun value taken derived => ?_
  refine .mark_bind fun closed => .pure ?_
  exact ⟨by simp, taken, rfl, derived⟩

theorem exprUnless (close : Mark) (enough : 3 ≤ slack) :
    predicts.Rule slack (exprUnless · close) (Derived .optionalExpr) := by
  refine .atMark_bind fun found => ?_
  cases found with
  | true => exact .pure .noExpr
  | false =>
      refine predicts.expr.bind enough fun value taken derived => .pure ?_
      rw [List.append_nil]
      exact .someExpr derived

/-! ## Statements after their keyword -/

theorem functionRule (start : Loc) :
    predicts.Rule slack (functionRule · start) (StatementFrom [.keyword .function]) := by
  refine .ident_bind fun name => ?_
  refine predicts.paramsRule.bind (Nat.le_refl _) fun params taken known => ?_
  obtain ⟨names, rfl, paramsDerived⟩ := known
  refine predicts.block.bind (by omega) fun body others derived => .pure ?_
  simpa [StatementFrom] using Derives.functionDeclaration paramsDerived derived

theorem ifRule (start : Loc) :
    predicts.Rule slack (ifRule · start) (StatementFrom [.keyword .if]) := by
  refine predicts.parenthesized.bind (Nat.le_refl _) fun test taken known => ?_
  obtain ⟨enough, inner, rfl, testDerived⟩ := known
  refine predicts.statement.bind (by omega) fun yes yesTaken yesDerived => ?_
  refine .keyword?_bind ?_ ?_
  · refine predicts.statement.bind (by omega) fun no noTaken noDerived => .pure ?_
    simpa [StatementFrom] using Derives.ifStatement testDerived yesDerived (.elseBranch noDerived) nofun
  · refine .pure ?_
    simpa [StatementFrom] using Derives.ifStatement testDerived yesDerived .noElse nofun

theorem forLoopRule {start : Loc} {init : Option ForInit} {header : List Terminal}
    (derived : Derived .forInit init header) :
    predicts.Rule slack (forLoopRule · start init)
      (StatementFrom (.keyword .for :: .mark .openParen :: header)) := by
  refine .mark_bind fun first => ?_
  refine (predicts.exprUnless .semicolon (by omega)).bind (Nat.le_refl _)
    fun test testTaken testDerived => ?_
  refine .mark_bind fun second => ?_
  refine (predicts.exprUnless .closeParen (by omega)).bind (Nat.le_refl _)
    fun update updateTaken updateDerived => ?_
  refine .mark_bind fun closed => ?_
  refine predicts.statement.bind (by omega) fun body bodyTaken bodyDerived => ?_
  refine .pure ?_
  simpa [StatementFrom] using Derives.forStatement derived testDerived updateDerived bodyDerived

theorem forEachRule {start : Loc} {kind : EachKind} {target : ForTarget} {left : List Terminal}
    (derived : Derived .target target left) (enough : 4 ≤ slack) :
    predicts.Rule slack (forEachRule · start kind target)
      (StatementFrom (.keyword .for :: .mark .openParen :: (left ++ [.keyword (eachKeyword kind)]))) := by
  cases kind with
  | keys =>
      refine predicts.expr.bind (by omega) fun subject taken subjectDerived => ?_
      refine .mark_bind fun closed => ?_
      refine predicts.statement.bind (by omega) fun body others bodyDerived => ?_
      refine .pure ?_
      simpa [StatementFrom, eachKeyword] using Derives.forInStatement derived subjectDerived bodyDerived
  | values =>
      refine predicts.assignExpr.bind (by omega) fun subject taken subjectDerived => ?_
      refine .mark_bind fun closed => ?_
      refine predicts.statement.bind (by omega) fun body others bodyDerived => ?_
      refine .pure ?_
      simpa [StatementFrom, eachKeyword] using Derives.forOfStatement derived subjectDerived bodyDerived

theorem whileRule (start : Loc) :
    predicts.Rule slack (whileRule · start) (StatementFrom [.keyword .while]) := by
  refine predicts.parenthesized.bind (Nat.le_refl _) fun test taken known => ?_
  obtain ⟨enough, inner, rfl, testDerived⟩ := known
  refine predicts.statement.bind (by omega) fun body others bodyDerived => .pure ?_
  simpa [StatementFrom] using Derives.whileStatement testDerived bodyDerived

theorem doWhileRule (start : Loc) (enough : 4 ≤ slack) :
    predicts.Rule slack (doWhileRule · start) (StatementFrom [.keyword .do]) := by
  refine predicts.statement.bind enough fun body taken bodyDerived => ?_
  refine .keyword_bind fun word => ?_
  refine predicts.parenthesized.bind (Nat.le_refl _) fun test others known => ?_
  obtain ⟨-, inner, rfl, testDerived⟩ := known
  refine .mark_bind fun stop => .pure ?_
  simpa [StatementFrom] using Derives.doWhileStatement bodyDerived testDerived

omit predicts in
theorem jumpRest : Parser.Predicts bound slack jumpRest jumpRest
    fun result word => ∃ label, word = label ++ [.mark .semicolon] ∧
      Derived .label result.1 label := by
  refine .ident?_bind (fun x => ?_) ?_
  · exact .mark_bind fun stop => .pure ⟨[.name x.name], rfl, .label⟩
  · exact .mark_bind fun stop => .pure ⟨[], rfl, .noLabel⟩

theorem catchRule (start : Loc) :
    predicts.Rule slack (catchRule · start)
      fun clause word => Derived .handler clause (.keyword .catch :: word) := by
  refine .mark_bind fun opened => ?_
  refine .ident_bind fun param => ?_
  refine .mark_bind fun closed => ?_
  refine predicts.block.bind (by omega) fun body taken derived => .pure ?_
  simpa using Derives.catches derived

theorem tryRule (start : Loc) (enough : 1 ≤ slack) :
    predicts.Rule slack (tryRule · start) (StatementFrom [.keyword .try]) := by
  refine predicts.block.bind enough fun body taken derived => ?_
  refine .take?_bind (fun terminal _ loc known => ?_) ?_
  · rw [Parser.Yields.only_eq_some.mp known]
    refine (predicts.catchRule loc).bind (Nat.le_refl _) fun clause caught clauseDerived => ?_
    refine .keyword?_bind ?_ ?_
    · refine predicts.block.bind (by omega) fun final others finalDerived => ?_
      refine .pure ?_
      simpa [StatementFrom] using Derives.tryCatchFinally derived clauseDerived (.finishes finalDerived)
    · refine .pure ?_
      simpa [StatementFrom] using Derives.tryCatch derived clauseDerived
  · refine .keyword_bind fun word => ?_
    refine predicts.block.bind (by omega) fun final others finalDerived => .pure ?_
    simpa [StatementFrom] using Derives.tryFinally derived (.finishes finalDerived)

/-! ## Cases -/

theorem caseBody : predicts.Rule slack caseBody
    fun result word => ∃ body, word = .mark .colon :: body ∧ Derived .statements result.1 body := by
  refine .mark_bind fun colon => ?_
  refine (predicts.statements .case).bind (by omega) fun body taken derived => ?_
  refine .pure ⟨taken, ?_, derived⟩
  rw [List.append_nil]

theorem casesAfter {start : Loc} {test : Option Expr} {front : List Terminal}
    (derived : Derived .caseTest test front) :
    predicts.Rule slack (fun grammar => do
        let (body, stop) ← Concrete.caseBody grammar
        return .mk (start.upTo stop) test body :: (← grammar .cases))
      fun items word => Derived .cases items (front ++ word) := by
  refine predicts.caseBody.bind (Nat.le_refl _) fun result taken known => ?_
  obtain ⟨body, rfl, bodyDerived⟩ := known
  have enough : 8 ≤ slack + 8 * (Terminal.mark .colon :: body).length := by
    simp only [List.length_cons]
    omega
  refine predicts.cases.bind (by omega) fun rest others restDerived => .pure ?_
  simpa using Derives.moreCases derived bodyDerived restDerived

theorem casesRule : predicts.Rule 0 casesRule (Derived .cases) := by
  refine .take?_bind (fun terminal _ start known => ?_) ?_
  · rw [Parser.Yields.only_eq_some.mp known]
    refine predicts.expr.bind (by omega) fun test taken derived => ?_
    exact predicts.casesAfter (.caseTest derived)
  refine .take?_bind (fun terminal _ start known => ?_) ?_
  · rw [Parser.Yields.only_eq_some.mp known]
    exact predicts.casesAfter .defaultTest
  · exact .pure .noCases

theorem switchRule (start : Loc) :
    predicts.Rule slack (switchRule · start) (StatementFrom [.keyword .switch]) := by
  refine predicts.parenthesized.bind (Nat.le_refl _) fun subject taken known => ?_
  obtain ⟨-, inner, rfl, subjectDerived⟩ := known
  refine .mark_bind fun opened => ?_
  refine predicts.cases.bind (by omega) fun items others derived => ?_
  refine .mark_bind fun closed => .pure ?_
  simpa [StatementFrom] using Derives.switchStatement subjectDerived derived

theorem exprStatement (enough : 3 ≤ slack) :
    predicts.Rule slack exprStatement (Derived .statement) := by
  refine (predicts.exprSemicolon enough).bind (Nat.le_refl _) fun result taken known => ?_
  obtain ⟨value, rfl, derived⟩ := known
  refine .pure ?_
  rw [List.append_nil]
  exact .exprStatement derived

/-! ## Loops and statements, whose way depends on two tokens -/

theorem forExprRule (start : Loc) (enough : 3 ≤ slack) :
    predicts.Rule slack (Concrete.forExprRule · start)
    (StatementFrom [.keyword .for, .mark .openParen]) := by
  refine predicts.expr.bind enough fun value taken derived => ?_
  exact (predicts.forLoopRule (.forExpr derived)).weaken (Nat.le_refl _) fun stmt word whole => by
    simpa [StatementFrom] using whole

theorem forPlainRule (start : Loc) (enough : 3 ≤ slack) :
    predicts.Rule slack (Concrete.forPlainRule · start)
    (StatementFrom [.keyword .for, .mark .openParen]) := by
  refine .atMark_bind fun found => ?_
  cases found with
  | true => exact predicts.forLoopRule .noForInit
  | false => exact predicts.forExprRule start enough

theorem forOpenRule (calm : deep.Calm) (start : Loc) (enough : 3 ≤ slack) :
    predicts.Rule slack (Concrete.forOpenRule · start) (StatementFrom [.keyword .for, .mark .openParen]) where
  nonempty := (predicts.forExprRule start enough).nonempty
  predicts tokens := by
    have plain := predicts.forPlainRule start enough
    have expr := predicts.forExprRule start enough
    have lone : ∀ text loc, Result.Spent ((Concrete.forExprRule deep start).run [⟨.name text, loc⟩]) :=
      fun text loc => Parser.Predicts.spent_bind (calm.expr _ rfl) fun value => trivial
    match tokens with
    | [] => exact (plain.predicts []).of_spent plain.spent_nil
    | [⟨.name text, loc⟩] =>
        have here := expr.predicts [⟨.name text, loc⟩]
        exact here.of_spent (here.spent_of_lone (lone text loc))
    | ⟨.name text, loc⟩ :: ⟨second, place⟩ :: rest =>
        cases known : eachKind second with
        | some each =>
            have run : ∀ (grammar : Grammar) later, (Concrete.forOpenRule grammar start).run
                  (⟨.name text, loc⟩ :: ⟨second, place⟩ :: later) =
                (Concrete.forEachRule grammar start each (.existing ⟨text, loc⟩)).run later := by
              intro grammar later
              rw [eachKind_eq_some.mp known]
              cases each <;> rfl
            have after :
                predicts.Rule (slack + 8 * 2) (Concrete.forEachRule · start each (.existing ⟨text, loc⟩)) fun stmt word =>
                  StatementFrom [.keyword .for, .mark .openParen] stmt (.name text :: second :: word) :=
              (predicts.forEachRule .existingTarget (by omega)).weaken (Nat.le_refl _)
                fun stmt word whole => by
                  rw [eachKind_eq_some.mp known]
                  exact whole
            rw [run shallow]
            exact Result.Predicts.append [⟨.name text, loc⟩, ⟨second, place⟩]
              (fun _ _ _ _ => run deep _) (after.predicts rest)
        | none =>
            have run : ∀ (grammar : Grammar) later, (Concrete.forOpenRule grammar start).run
                  (⟨.name text, loc⟩ :: ⟨second, place⟩ :: later) =
                (Concrete.forExprRule grammar start).run
                  (⟨.name text, loc⟩ :: ⟨second, place⟩ :: later) := by
              intro grammar later
              show StateT.run (match eachKind second with
                | some each => do
                  set later
                  Concrete.forEachRule grammar start each (.existing ⟨text, loc⟩)
                | none => do
                  set (⟨.name text, loc⟩ :: ⟨second, place⟩ :: later)
                  Concrete.forExprRule grammar start) _ = _
              rw [known]
              rfl
            rw [run shallow]
            exact (expr.predicts _).of_two (lone text loc) (run deep)
    | ⟨.mark mark, loc⟩ :: rest => exact plain.at_head rfl fun later => rfl
    | ⟨.number text, loc⟩ :: rest => exact plain.at_head rfl fun later => rfl
    | ⟨.string text, loc⟩ :: rest => exact plain.at_head rfl fun later => rfl
    | ⟨.keyword word, loc⟩ :: rest => exact plain.at_head rfl fun later => rfl

theorem forRule (calm : deep.Calm) (start : Loc) :
    predicts.Rule slack (forRule · start) (StatementFrom [.keyword .for]) := by
  refine .mark_bind fun opened => ?_
  refine .take?_bind (fun terminal kind kindLoc known => ?_) ?_
  · rw [declKind_eq_some.mp known]
    refine .ident_bind fun name => ?_
    refine .take?_bind (fun terminal each _ known => ?_) ?_
    · rw [eachKind_eq_some.mp known]
      exact (predicts.forEachRule .declaredTarget (by omega)).weaken (Nat.le_refl _)
        fun stmt word whole => whole
    · refine (predicts.declaratorRest name (by omega)).bind (Nat.le_refl _) fun first taken found => ?_
      obtain ⟨loc, value, rfl, derived⟩ := found
      refine (predicts.declaratorsFrom derived (by omega)).bind (Nat.le_refl _)
        fun items others itemsDerived => ?_
      refine (predicts.forLoopRule (.forDeclaration (.declares itemsDerived))).weaken (Nat.le_refl _)
        fun stmt word whole => ?_
      simpa [StatementFrom] using whole
  · exact predicts.forOpenRule calm start (by omega)

/-! ### Statements that start with a reserved word -/

theorem declarationRest (start : Loc) (kind : DeclKind) :
    predicts.Rule (slack + 8) (Concrete.declarationRest · start kind)
    (StatementFrom [.keyword (declKeyword kind)]) := by
  refine predicts.declarators.bind (by omega) fun items taken derived => ?_
  refine .mark_bind fun stop => .pure ?_
  exact .declarationStatement (.declares derived)

theorem returnRest (start : Loc) : predicts.Rule (slack + 8) (Concrete.returnRest · start)
    (StatementFrom [.keyword .return]) := by
  refine (predicts.exprUnless .semicolon (by omega)).bind (Nat.le_refl _) fun value taken derived => ?_
  refine .mark_bind fun stop => .pure ?_
  exact .returnStatement derived

theorem throwRest (start : Loc) : predicts.Rule (slack + 8) (Concrete.throwRest · start)
    (StatementFrom [.keyword .throw]) := by
  refine (predicts.exprSemicolon (by omega)).bind (Nat.le_refl _) fun result taken known => ?_
  obtain ⟨value, rfl, derived⟩ := known
  refine .pure ?_
  simpa [StatementFrom] using Derives.throwStatement derived

omit predicts in
theorem breakRest (start : Loc) : Parser.Predicts bound slack (Concrete.breakRest start)
    (Concrete.breakRest start) (StatementFrom [.keyword .break]) := by
  refine jumpRest.bind (Nat.le_refl _) fun result taken known => ?_
  obtain ⟨label, rfl, derived⟩ := known
  refine .pure ?_
  simpa [StatementFrom] using Derives.breakStatement derived

omit predicts in
theorem continueRest (start : Loc) : Parser.Predicts bound slack (Concrete.continueRest start)
    (Concrete.continueRest start) (StatementFrom [.keyword .continue]) := by
  refine jumpRest.bind (Nat.le_refl _) fun result taken known => ?_
  obtain ⟨label, rfl, derived⟩ := known
  refine .pure ?_
  simpa [StatementFrom] using Derives.continueStatement derived

/-- A name after the keyword makes a declaration, anything else an expression. -/
theorem functionStatement (calm : deep.Calm) (start : Loc) (rest : List Token) :
    Result.Predicts bound 3 (keywordStatement deep .function start) (Derived .statement)
      (⟨.keyword .function, start⟩ :: rest)
      ((keywordStatement shallow .function start).run (⟨.keyword .function, start⟩ :: rest)) := by
  have plain := predicts.exprStatement (Nat.le_refl 3)
  have lone := calm.exprStatement ⟨.keyword .function, start⟩ rfl
  match rest with
  | [] =>
      have here := plain.predicts [⟨.keyword .function, start⟩]
      exact here.of_spent (here.spent_of_lone lone)
  | ⟨.name text, place⟩ :: rest =>
      have after :
          predicts.Rule (3 + 8) (Concrete.functionRule · start) (StatementFrom [.keyword .function]) :=
        predicts.functionRule start
      refine Result.Predicts.append [⟨.keyword .function, start⟩] (fun token rest split later => ?_)
        (after.predicts (⟨.name text, place⟩ :: rest))
      cases split
      rfl
  | ⟨.number text, place⟩ :: rest => exact (plain.predicts _).of_two lone fun later => rfl
  | ⟨.string text, place⟩ :: rest => exact (plain.predicts _).of_two lone fun later => rfl
  | ⟨.mark mark, place⟩ :: rest => exact (plain.predicts _).of_two lone fun later => rfl
  | ⟨.keyword word, place⟩ :: rest => exact (plain.predicts _).of_two lone fun later => rfl

theorem keywordStatement (calm : deep.Calm) (word : Keyword) (start : Loc) (rest : List Token) :
    Result.Predicts bound 3 (keywordStatement deep word start) (Derived .statement)
      (⟨.keyword word, start⟩ :: rest)
      ((Concrete.keywordStatement shallow word start).run (⟨.keyword word, start⟩ :: rest)) := by
  have plain := predicts.exprStatement (Nat.le_refl 3)
  cases word with
  | function => exact predicts.functionStatement calm start rest
  | «if» => exact (predicts.ifRule start).after_head rfl fun later => rfl
  | «for» => exact (predicts.forRule calm start).after_head rfl fun later => rfl
  | «while» => exact (predicts.whileRule start).after_head rfl fun later => rfl
  | «do» => exact (predicts.doWhileRule start (by omega)).after_head rfl fun later => rfl
  | «return» => exact (predicts.returnRest start).after_head rfl fun later => rfl
  | «break» => exact (breakRest start).after_head rfl fun later => rfl
  | «continue» => exact (continueRest start).after_head rfl fun later => rfl
  | «throw» => exact (predicts.throwRest start).after_head rfl fun later => rfl
  | «try» => exact (predicts.tryRule start (by omega)).after_head rfl fun later => rfl
  | «switch» => exact (predicts.switchRule start).after_head rfl fun later => rfl
  | «var» => exact (predicts.declarationRest start .var).after_head rfl fun later => rfl
  | «let» => exact (predicts.declarationRest start .let).after_head rfl fun later => rfl
  | «const» => exact (predicts.declarationRest start .const).after_head rfl fun later => rfl
  | _ => exact plain.at_head rfl fun later => rfl

theorem labeledRest (label : Ident) : predicts.Rule (3 + 8 * 2) (Concrete.labeledRest · label)
    (StatementFrom [.name label.name, .mark .colon]) := by
  refine predicts.statement.bind (by omega) fun body taken derived => .pure ?_
  rw [List.append_nil]
  exact .labeledStatement derived

theorem blockStatement : predicts.Rule 3 Concrete.blockStatement (Derived .statement) := by
  refine predicts.block.bind (by omega) fun body taken derived => .pure ?_
  rw [List.append_nil]
  exact .blockStatement derived

theorem statementRule (calm : deep.Calm) : predicts.Rule 3 statementRule (Derived .statement) where
  nonempty := ⟨.empty ⟨0, 0, 0, 0⟩, _, .emptyStatement⟩
  predicts tokens := by
    have plain := predicts.exprStatement (Nat.le_refl 3)
    have lone : ∀ text loc, Result.Spent ((Concrete.exprStatement deep).run [⟨.name text, loc⟩]) :=
      fun text loc => calm.exprStatement ⟨.name text, loc⟩ rfl
    match tokens with
    | [] => exact (plain.predicts []).of_spent plain.spent_nil
    | ⟨.keyword word, start⟩ :: rest =>
        have here := predicts.keywordStatement calm word start rest
        refine Result.Predicts.of_head (fun later => ?_) here
        rfl
    | ⟨.mark mark, loc⟩ :: rest =>
        cases mark with
        | openBrace =>
            exact (predicts.blockStatement).at_head rfl fun later => rfl
        | semicolon =>
            refine Parser.Predicts.after_head (.pure ?_) rfl fun later => rfl
            exact .emptyStatement
        | _ => exact plain.at_head rfl fun later => rfl
    | [⟨.name text, loc⟩] =>
        have here := plain.predicts [⟨.name text, loc⟩]
        exact here.of_spent (here.spent_of_lone (lone text loc))
    | ⟨.name text, loc⟩ :: ⟨second, place⟩ :: rest =>
        by_cases colon : second = .mark .colon
        · subst colon
          have after := predicts.labeledRest ⟨text, loc⟩
          exact Result.Predicts.append [⟨.name text, loc⟩, ⟨.mark .colon, place⟩]
            (fun _ _ _ _ => rfl) (after.predicts rest)
        · have other : ∀ (grammar : Grammar) later,
              (Concrete.statementRule grammar).run (⟨.name text, loc⟩ :: ⟨second, place⟩ :: later) =
                (Concrete.exprStatement grammar).run
                  (⟨.name text, loc⟩ :: ⟨second, place⟩ :: later) := by
            intro grammar later
            cases second with
            | mark mark =>
                cases mark with
                | colon => exact absurd rfl colon
                | _ => rfl
            | _ => rfl
          rw [other shallow]
          exact (plain.predicts _).of_two (lone text loc) (other deep)
    | ⟨.number text, loc⟩ :: rest => exact plain.at_head rfl fun later => rfl
    | ⟨.string text, loc⟩ :: rest => exact plain.at_head rfl fun later => rfl

/-! ## All goals -/

theorem rule (calm : deep.Calm) :
    Grammar.Predicts (bound + 1) (Concrete.rule shallow) (Concrete.rule deep) where
  expr := predicts.exprRule.call
  exprTail left := (predicts.exprTailRule left).call
  assignExpr := (predicts.assignExprRule calm).call
  exprList := predicts.exprListRule.call
  levelTail left here := (predicts.levelTailRule left here).call
  unary := predicts.unaryRule.call
  callTail callee := (predicts.callTailRule callee).call
  names := predicts.namesRule.call
  declarators := predicts.declaratorsRule.call
  block := predicts.blockRule.call
  statement := (predicts.statementRule calm).call
  statements until_ := (predicts.statementsRule until_).call
  cases := predicts.casesRule.call

end Grammar.Predicts

theorem Grammar.Calm.rule {grammar : Grammar} (calm : grammar.Calm) :
    (Concrete.rule grammar).Calm where
  self := by
    obtain ⟨bound, self⟩ := calm.self
    exact ⟨bound + 1, self.rule calm⟩
  unary := calm.unaryRule
  assignExpr := calm.assignExprRule
  expr := calm.exprRule

theorem parseGoal_predicts_zero (deep : Grammar) : Grammar.Predicts 0 (parseGoal 0) deep := by
  have tail : ∀ stratum value, ∃ result word, GoesOn stratum stratum value result word := by
    intro stratum value
    refine ⟨value, [], fun before derived => ?_⟩
    rwa [List.append_nil]
  have expr : ∀ stratum ≤ Grade.primary, ∃ value word, Derived (.expr stratum) value word :=
    fun stratum le => ⟨.name ⟨"", ⟨0, 0, 0, 0⟩⟩, _, Derives.name.loosen le⟩
  exact {
    expr := ⟨expr _ (by decide), fun _ => Nat.succ_pos _⟩
    exprTail := fun left => ⟨tail _ _, fun _ => Nat.succ_pos _⟩
    assignExpr := ⟨expr _ (by decide), fun _ => Nat.succ_pos _⟩
    exprList := ⟨⟨_, _, .oneExpr (Derives.loosen (.name (x := ⟨"", ⟨0, 0, 0, 0⟩⟩)) (by decide))⟩,
      fun _ => Nat.succ_pos _⟩
    levelTail := fun left _ => ⟨tail _ _, fun _ => Nat.succ_pos _⟩
    unary := ⟨expr _ (by decide), fun _ => Nat.succ_pos _⟩
    callTail := fun callee => ⟨tail _ _, fun _ => Nat.succ_pos _⟩
    names := ⟨⟨[⟨"", ⟨0, 0, 0, 0⟩⟩], _, .oneName⟩, fun _ => Nat.succ_pos _⟩
    declarators := ⟨⟨[.mk ⟨0, 0, 0, 0⟩ ⟨"", ⟨0, 0, 0, 0⟩⟩ none], _, .oneDeclarator .noInitial⟩,
      fun _ => Nat.succ_pos _⟩
    block := ⟨⟨.mk ⟨0, 0, 0, 0⟩ [], _, .braces .noStatements⟩, fun _ => Nat.succ_pos _⟩
    statement := ⟨⟨.empty ⟨0, 0, 0, 0⟩, _, .emptyStatement⟩, fun _ => Nat.succ_pos _⟩
    statements := fun _ => ⟨⟨[], _, .noStatements⟩, fun _ => Nat.succ_pos _⟩
    cases := ⟨⟨[], _, .noCases⟩, fun _ => Nat.succ_pos _⟩ }

theorem parseGoal_calm (depth : Nat) : Grammar.Calm (parseGoal depth) := by
  induction depth with
  | zero =>
      exact ⟨⟨0, parseGoal_predicts_zero _⟩, fun _ _ => trivial, fun _ _ => trivial,
        fun _ _ => trivial⟩
  | succ depth ih => exact ih.rule

/-- The goals predict their symbols for any two bounds on the depth of calls. -/
theorem parseGoal_predicts {depth deeper : Nat} (le : depth ≤ deeper) :
    Grammar.Predicts depth (parseGoal depth) (parseGoal deeper) := by
  induction depth generalizing deeper with
  | zero => exact parseGoal_predicts_zero _
  | succ depth ih =>
      obtain ⟨below, rfl⟩ : ∃ below, deeper = below + 1 := ⟨deeper - 1, by omega⟩
      exact (ih (Nat.le_of_succ_le_succ le)).rule (parseGoal_calm below)

theorem run_ne_depth {tokens : List Token} {depth : Nat} (le : depthFor tokens.length ≤ depth) :
    (parseGoal depth (.statements .program)).run tokens ≠ .error .depth := by
  intro deep
  have here := ((parseGoal_predicts (Nat.le_refl depth)).statements .program).predicts tokens
  rw [deep] at here
  have short : depth < 8 * tokens.length + 5 := here
  unfold depthFor at le
  omega

end LoopCapture.Concrete
