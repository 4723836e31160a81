import LoopCapture.Proofs.Concrete.Leading
import LoopCapture.Proofs.Grammar.StmtRules

/-!
# The parser reads everything that stands there

Every well-formed tree that spells some tokens is what the parser yields on them, if the tokens
behind it do not go on with it and the bound on the depth of calls is not met. The parser of programs
never meets its bound, which is part of what it predicts.
-/

set_option autoImplicit false

namespace LoopCapture.Concrete

open Parser.Yields
variable {rest tokens : List Token} {value : Expr}

theorem Parser.Yields.unique {α : Type} {parser : Parser α} {other : List Token}
    {first second : α} (run : parser.Yields tokens first rest)
    (again : parser.Finds tokens second other) : first = second ∧ rest = other := by
  rcases again with deep | again
  · cases run.symm.trans deep
  · cases run.symm.trans again
    exact ⟨rfl, rfl⟩

/-! ## Goals -/

/-- An expression without commas ends before the remaining tokens. -/
def Expr.Closed (value : Expr) (rest : List Token) : Prop :=
  value.endsInBlock = true ∨ stops Grade.assignment (next rest) = true

/-- What the goals of a grammar find. -/
structure Grammar.Complete (grammar : Grammar) : Prop where
  expr : ∀ {value tokens rest}, value.Read 0 tokens rest → stops 0 (next rest) = true →
    (grammar .expr).Finds tokens value rest
  exprTail : ∀ {left value tokens rest}, Continues 0 left tokens value rest →
    stops 0 (next rest) = true → (grammar (.exprTail left)).Finds tokens value rest
  assignExpr : ∀ {value tokens rest}, value.Read Grade.assignment tokens rest →
    value.Closed rest → (grammar .assignExpr).Finds tokens value rest
  exprList : ∀ {items tokens rest}, exprsSpell items tokens rest → exprsWellFormed items →
    items ≠ [] → stops 0 (next rest) = true → (grammar .exprList).Finds tokens items rest
  levelTail : ∀ {index level tighter left value tokens rest},
    levels.drop index = level :: tighter →
    Continues (Grade.operation + index) left tokens value rest →
    stops (Grade.operation + index) (next rest) = true →
    (grammar (.levelTail level tighter left)).Finds tokens value rest
  unary : ∀ {value tokens rest}, value.Read Grade.unary tokens rest →
    stops Grade.unary (next rest) = true → (grammar .unary).Finds tokens value rest
  callTail : ∀ {callee value tokens rest}, Continues Grade.call callee tokens value rest →
    stops Grade.call (next rest) = true → (grammar (.callTail callee)).Finds tokens value rest
  names : ∀ {names tokens rest}, namesSpell names tokens rest → names ≠ [] →
    stops 0 (next rest) = true → (grammar .names).Finds tokens names rest
  declarators : ∀ {items tokens rest}, declaratorsSpell items tokens rest →
    declaratorsWellFormed items → items ≠ [] → stops 0 (next rest) = true →
    (grammar .declarators).Finds tokens items rest
  block : ∀ {body tokens rest}, body.Spells tokens rest → body.WellFormed →
    (grammar .block).Finds tokens body rest
  statement : ∀ {stmt tokens rest}, stmt.Read tokens rest → next rest ≠ some (.keyword .finally) →
    (grammar .statement).Finds tokens stmt rest
  statements : ∀ {until_ body tokens rest}, stmtsSpell body tokens rest → stmtsWellFormed body →
    until_.stops (next rest) = true → (grammar (.statements until_)).Finds tokens body rest
  cases : ∀ {items tokens rest}, casesSpell items tokens rest → casesWellFormed items →
    next rest = some (.mark .closeBrace) → (grammar .cases).Finds tokens items rest

def ClosesExpr (mark : Mark) : Prop :=
  joinGrade? (.mark mark) = none ∧ startsExpr (.mark mark) = false

theorem not_next_of_starts (terminal : Terminal) (spelled : value.Spells tokens rest)
    (formed : value.WellFormed) (other : startsExpr terminal = false) :
    next tokens ≠ some terminal := by
  obtain ⟨first, known, starts⟩ := Expr.starts spelled formed
  rw [known]
  rintro ⟨rfl⟩
  rw [other] at starts
  cases starts

theorem stops_mark {mark : Mark} (closes : joinGrade? (.mark mark) = none) (grade : Nat) :
    stops grade (some (.mark mark)) = true := by
  simp [stops, closes]

def startsStmt : Terminal → Bool
  | .keyword .else => false
  | .keyword .case => false
  | .keyword .default => false
  | .keyword .finally => false
  | .mark .closeBrace => false
  | _ => true

theorem startsStmt_of_expr {terminal : Terminal} (starts : startsExpr terminal = true) :
    startsStmt terminal = true := by
  unfold startsStmt
  split <;> first | rfl | cases starts

theorem Stmt.starts {stmt : Stmt} (spelled : stmt.Spells tokens rest) (formed : stmt.WellFormed) :
    ∃ terminal, next tokens = some terminal ∧ startsStmt terminal = true := by
  cases stmt with
  | declaration _ item =>
      obtain ⟨loc, kind, items⟩ := item
      obtain ⟨last, ⟨first, between, rfl, -⟩, -⟩ := spelled
      exact ⟨_, rfl, by cases kind <;> rfl⟩
  | function =>
      obtain ⟨first, opened, closed, inner, after, rfl, -⟩ := spelled
      exact ⟨_, rfl, rfl⟩
  | block body =>
      obtain ⟨loc, body⟩ := body
      obtain ⟨first, last, inner, rfl, -⟩ := spelled
      exact ⟨_, rfl, rfl⟩
  | ifElse =>
      obtain ⟨first, opened, closed, inner, after, between, rfl, -⟩ := spelled
      exact ⟨_, rfl, rfl⟩
  | forLoop =>
      obtain ⟨first, opened, one, two, closed, start, middle, last, after, rfl, -⟩ := spelled
      exact ⟨_, rfl, rfl⟩
  | forEach =>
      obtain ⟨first, opened, word, closed, start, middle, after, rfl, -⟩ := spelled
      exact ⟨_, rfl, rfl⟩
  | whileLoop =>
      obtain ⟨first, opened, closed, inner, after, rfl, -⟩ := spelled
      exact ⟨_, rfl, rfl⟩
  | doWhile =>
      obtain ⟨first, word, opened, closed, last, inner, after, rfl, -⟩ := spelled
      exact ⟨_, rfl, rfl⟩
  | returns | breaks | continues | throws =>
      obtain ⟨first, last, inner, rfl, -⟩ := spelled
      exact ⟨_, rfl, rfl⟩
  | tryCatch =>
      obtain ⟨first, inner, between, after, rfl, -⟩ := spelled
      exact ⟨_, rfl, rfl⟩
  | switch =>
      obtain ⟨first, opened, closed, brace, last, inner, after, rfl, -⟩ := spelled
      exact ⟨_, rfl, rfl⟩
  | labeled =>
      obtain ⟨colon, after, rfl, -⟩ := spelled
      exact ⟨_, rfl, rfl⟩
  | expr _ value =>
      obtain ⟨last, valueSpelled, -⟩ := spelled
      obtain ⟨terminal, known, starts⟩ := Expr.starts valueSpelled formed
      exact ⟨terminal, known, startsStmt_of_expr starts⟩
  | empty =>
      obtain rfl : tokens = _ := spelled
      exact ⟨_, rfl, rfl⟩

theorem ListEnd.not_stops {until_ : ListEnd} {terminal : Terminal}
    (starts : startsStmt terminal = true) : until_.stops (some terminal) = false := by
  cases until_ with
  | program => rfl
  | block =>
      refine beq_eq_false_iff_ne.mpr ?_
      rintro ⟨⟩
      cases starts
  | case =>
      simp only [ListEnd.stops, Bool.or_eq_false_iff, beq_eq_false_iff_ne]
      refine ⟨⟨?_, ?_⟩, ?_⟩ <;> rintro ⟨⟩ <;> cases starts

theorem ListEnd.ends {until_ : ListEnd} {following : Option Terminal}
    (stopped : until_.stops following = true) :
    following ≠ some (.keyword .else) ∧ following ≠ some (.keyword .finally) := by
  constructor
  all_goals rintro rfl
  all_goals cases until_ <;> cases stopped

/-- The cases of a `switch` end the statements of the case before them. -/
theorem stops_case {items : List Case} (spelled : casesSpell items tokens rest)
    (closing : next rest = some (.mark .closeBrace)) :
    ListEnd.case.stops (next tokens) = true := by
  cases items with
  | nil =>
      obtain rfl : tokens = rest := spelled
      rw [closing]
      rfl
  | cons item more =>
      obtain ⟨loc, test, body⟩ := item
      obtain ⟨first, colon, between, after, testSpelled, -⟩ := spelled
      cases test with
      | none =>
          obtain rfl : tokens = _ := testSpelled
          rfl
      | some test =>
          obtain ⟨inner, rfl, -⟩ := testSpelled
          rfl

/-- What comes after a name at the start of an expression separates no sides of a loop. -/
theorem eachKind_absent {text : String} {loc one : Loc} {more : List Token}
    (spelled : value.Spells (⟨.name text, loc⟩ :: more) (⟨.mark .semicolon, one⟩ :: rest))
    (formed : value.WellFormed) : (next more).bind eachKind = none := by
  rcases Expr.follows_name spelled formed with ⟨-, rfl⟩ | ⟨join, known, -⟩
  · rfl
  · cases following : next more with
    | none => rfl
    | some terminal =>
        rw [following] at known
        cases kind : eachKind terminal with
        | none => simpa using kind
        | some each =>
            obtain rfl := eachKind_eq_some.mp kind
            cases each <;> cases known

theorem eachKind_absent_init {x : Ident} {loc : Loc} {init : Option Expr}
    (spelled : initSpells x loc init tokens rest) (absent : (next rest).bind eachKind = none) :
    (next tokens).bind eachKind = none := by
  cases init with
  | none =>
      obtain ⟨rfl, -⟩ := spelled
      exact absent
  | some value =>
      obtain ⟨sign, between, rfl, -⟩ := spelled
      rfl

theorem declKind_absent (spelled : value.Spells tokens rest) (formed : value.WellFormed) :
    (next tokens).bind declKind = none := by
  obtain ⟨terminal, known, starts⟩ := Expr.starts spelled formed
  rw [known]
  cases kind : declKind terminal with
  | none => simpa using kind
  | some declared =>
      obtain rfl := declKind_eq_some.mp kind
      cases declared <;> cases starts

namespace Grammar.Complete

variable {grammar : Grammar} (complete : grammar.Complete)
variable {rest tokens after : List Token} {start closed loc last : Loc} {value : Expr} {body : Stmt}
include complete

/-! ## Expressions -/

theorem exprRule (read : value.Read 0 tokens rest) (stopped : stops 0 (next rest) = true) :
    (Concrete.exprRule grammar).Finds tokens value rest := by
  obtain ⟨first, between, firstRead, onward⟩ := read.spine (.inl rfl)
  exact (complete.assignExpr firstRead (.inr (onward.stops stopped))).andThen
    (complete.exprTail onward stopped)

theorem exprTailRule {left : Expr} (onward : Continues 0 left tokens value rest)
    (stopped : stops 0 (next rest) = true) :
    (Concrete.exprTailRule grammar left).Finds tokens value rest := by
  cases onward with
  | done => exact .missing (mark_ne_of_stops stopped rfl (Nat.le_refl _)) .pure
  | @more _ middle _ _ after _ step further =>
      cases step with
      | @sequence comma right between _ _ read =>
          have rightRun := complete.assignExpr read (.inr (further.stops stopped))
          exact .found (rightRun.andThen (complete.exprTail further stopped))
      | operation same => exact absurd same (by unfold Grade.operation; omega)
      | call same | member same | index same => cases same

theorem exprListRule {items : List Expr} (spelled : exprsSpell items tokens rest)
    (formed : exprsWellFormed items) (nonempty : items ≠ [])
    (stopped : stops 0 (next rest) = true) :
    (Concrete.exprListRule grammar).Finds tokens items rest := by
  cases items with
  | nil => exact absurd rfl nonempty
  | cons first others =>
      cases others with
      | nil =>
          have read : first.Read Grade.assignment tokens rest := ⟨spelled, formed.1, formed.2.1⟩
          have run := complete.assignExpr read (.inr (stops_mono (by decide) stopped))
          exact run.andThen (.missing (mark_ne_of_stops stopped rfl (Nat.le_refl _)) .pure)
      | cons second others =>
          obtain ⟨comma, between, firstSpelled, othersSpelled⟩ := spelled
          have firstRun := complete.assignExpr ⟨firstSpelled, formed.1, formed.2.1⟩ (.inr rfl)
          have othersRun := complete.exprList othersSpelled formed.2.2 (by simp) stopped
          exact firstRun.andThen (.found othersRun.andPure)

theorem exprsUpTo {close : Mark} {items : List Expr} (closes : ClosesExpr close)
    (spelled : exprsSpell items tokens (⟨.mark close, last⟩ :: rest))
    (formed : exprsWellFormed items) :
    (Concrete.exprsUpTo grammar close).Finds tokens (items, last) rest := by
  refine .atMark ?_
  cases items with
  | nil =>
      obtain rfl : tokens = _ := spelled
      simp only [next_cons, beq_self_eq_true, if_true]
      exact .mark .pure
  | cons first others =>
      have different : next tokens ≠ some (.mark close) := by
        cases others with
        | nil => exact not_next_of_starts _ spelled formed.1 closes.2
        | cons second others =>
            obtain ⟨comma, between, firstSpelled, -⟩ := spelled
            exact not_next_of_starts _ firstSpelled formed.1 closes.2
      rw [if_neg (by simpa using different)]
      have run := complete.exprList spelled formed (by simp) (stops_mark closes.1 0)
      exact run.andThen (.mark .pure)

theorem paramsRule {names : List Ident} {opened : Loc} {inner : List Token}
    (spelled : namesSpell names inner (⟨.mark .closeParen, closed⟩ :: rest)) :
    (Concrete.paramsRule grammar).Finds (⟨.mark .openParen, opened⟩ :: inner) names rest := by
  refine .mark (.atMark ?_)
  have closing : (Parser.mark .closeParen >>= fun _ => pure names : Parser (List Ident)).Finds
      (⟨.mark .closeParen, closed⟩ :: rest) names rest :=
    .mark .pure
  cases names with
  | nil =>
      obtain rfl : inner = _ := spelled
      exact .andThen .pure closing
  | cons first others =>
      have different : next inner ≠ some (.mark .closeParen) := by
        cases others with
        | nil =>
            obtain rfl : inner = _ := spelled
            nofun
        | cons second others =>
            obtain ⟨comma, between, rfl, -⟩ := spelled
            nofun
      dsimp only
      rw [if_neg (by simpa using different)]
      exact (complete.names spelled (by simp) rfl).andThen closing

theorem primaryRule (read : value.Read Grade.primary tokens rest) :
    (Concrete.primaryRule grammar).Finds tokens value rest ∧
      (next tokens).bind unaryOp = none ∧ (next tokens).bind updateOp = none := by
  have spelled := read.spells
  have formed := read.wellFormed
  cases value with
  | name _ | number _ _ | string _ _ =>
      obtain rfl : tokens = _ := spelled
      exact ⟨.after rfl (.after rfl .pure), rfl, rfl⟩
  | constant loc word =>
      obtain rfl : tokens = _ := spelled
      have run {found : Constant} (known : constant (.keyword word.keyword) = some found) :
          (Parser.take constant).Yields (⟨.keyword word.keyword, loc⟩ :: rest) (found, loc) rest :=
        take_iff.mpr ⟨_, rfl, known⟩
      cases word <;> exact ⟨.after rfl (.after (run rfl) .pure), rfl, rfl⟩
  | array _ items =>
      obtain ⟨first, last, inner, rfl, itemsSpelled, rfl⟩ := spelled
      have run := complete.exprsUpTo ⟨rfl, rfl⟩ itemsSpelled formed
      exact ⟨.after rfl (.after rfl run.andPure), rfl, rfl⟩
  | group _ inner =>
      obtain ⟨first, last, between, rfl, innerSpelled, rfl⟩ := spelled
      have run := complete.expr ⟨innerSpelled, formed, Nat.zero_le _⟩ rfl
      exact ⟨.after rfl (.after rfl (run.andThen (.mark .pure))), rfl, rfl⟩
  | function _ names body =>
      obtain ⟨first, opened, closed, inner, after, rfl, named, bodySpelled, rfl⟩ := spelled
      refine ⟨.after rfl (.after rfl ((complete.paramsRule named).andThen ?_)), rfl, rfl⟩
      exact (complete.block bodySpelled formed).andPure
  | update _ _ before _ =>
      cases before <;> exact absurd read.grade_le (by simp [Expr.grade, Grade.primary])
  | operation _ op _ _ =>
      have tight := read.grade_le
      have below := op.level_lt
      simp only [Expr.grade, Grade.primary, Grade.operation] at tight
      omega
  | _ => exact absurd read.grade_le (by simp [Expr.grade, Grade.primary])

theorem callTailRule {callee : Expr} (onward : Continues Grade.call callee tokens value rest)
    (stopped : stops Grade.call (next rest) = true) :
    (Concrete.callTailRule grammar callee).Finds tokens value rest := by
  cases onward with
  | done =>
      refine .missing (mark_ne_of_stops stopped rfl (Nat.le_refl _)) ?_
      refine .missing (mark_ne_of_stops stopped rfl (Nat.le_refl _)) ?_
      refine .missing (mark_ne_of_stops stopped rfl (Nat.le_refl _)) ?_
      exact .pure
  | @more _ middle _ _ after _ step further =>
      cases step with
      | sequence same => cases same
      | @operation op _ _ _ _ same =>
          have below := op.level_lt
          simp only [Grade.call, Grade.operation] at same
          omega
      | @call opened last args between _ _ spelled formed =>
          refine .found ?_
          exact (complete.exprsUpTo ⟨rfl, rfl⟩ spelled formed).andThen
            (complete.callTail further stopped)
      | @member dot x _ _ =>
          refine .missing nofun (.found ?_)
          exact .ident (complete.callTail further stopped)
      | @index opened last key between _ _ read =>
          refine .missing nofun (.missing nofun ?_)
          refine .found ?_
          refine (complete.expr read rfl).andThen ?_
          exact .mark (complete.callTail further stopped)

/-- An operand with calls and an operator after it, read from its primary expression on. -/
theorem postfixRule (read : value.Read 10 tokens rest) (stopped : stops 10 (next rest) = true) :
    ∃ (primary : Expr) (between : List Token), primary.Read Grade.primary tokens between ∧
      (Concrete.postfixRule grammar primary).Finds between value rest := by
  by_cases called : Grade.call ≤ value.grade
  · obtain ⟨primary, between, primaryRead, onward⟩ :=
      Expr.Read.spine ⟨read.spells, read.wellFormed, called⟩ (.inr (.inr rfl))
    have run := complete.callTail onward (stops_mono (by decide) stopped)
    exact ⟨primary, between, primaryRead, run.andThen (.passed (updateOp_absent stopped) .pure)⟩
  · have grade : value.grade = 10 :=
      Nat.le_antisymm (Nat.le_of_lt_succ (Nat.lt_of_not_le called)) read.grade_le
    have spelled := read.spells
    have formed := read.wellFormed
    cases value with
    | update _ op before operand =>
        cases before with
        | true => cases grade
        | false =>
            obtain ⟨sign, operandSpelled, rfl⟩ := spelled
            obtain ⟨primary, between, primaryRead, onward⟩ :=
              Expr.Read.spine ⟨operandSpelled, formed.1, formed.2⟩ (.inr (.inr rfl))
            have run := complete.callTail onward (by simp [stops, joinGrade?_update, Grade.call])
            refine ⟨primary, between, primaryRead, run.andThen ?_⟩
            exact .taken (updateOp_eq_some.mpr rfl) .pure
    | operation _ op _ _ =>
        have below := op.level_lt
        simp only [Expr.grade, Grade.operation] at grade
        omega
    | _ => cases grade

theorem unaryRule (read : value.Read Grade.unary tokens rest)
    (stopped : stops Grade.unary (next rest) = true) :
    (Concrete.unaryRule grammar).Finds tokens value rest := by
  by_cases tight : 10 ≤ value.grade
  · obtain ⟨primary, between, primaryRead, run⟩ :=
      complete.postfixRule ⟨read.spells, read.wellFormed, tight⟩ (stops_mono (by decide) stopped)
    obtain ⟨primaryRun, notUnary, notUpdate⟩ := complete.primaryRule primaryRead
    exact .passed notUnary (.passed notUpdate (primaryRun.andThen run))
  · have grade : value.grade = 9 :=
      Nat.le_antisymm (Nat.le_of_lt_succ (Nat.lt_of_not_le tight)) read.grade_le
    have spelled := read.spells
    have formed := read.wellFormed
    cases value with
    | unary _ op operand =>
        obtain ⟨sign, between, rfl, operandSpelled, rfl⟩ := spelled
        have run := complete.unary ⟨operandSpelled, formed.1, formed.2⟩ stopped
        exact .taken (unaryOp_eq_some.mpr rfl) run.andPure
    | update _ op before operand =>
        cases before with
        | false => cases grade
        | true =>
            obtain ⟨sign, between, rfl, operandSpelled, rfl⟩ := spelled
            have run := complete.unary ⟨operandSpelled, formed.1, formed.2⟩ stopped
            refine .passed (by cases op <;> rfl) ?_
            exact .taken (updateOp_eq_some.mpr rfl) run.andPure
    | operation _ op _ _ =>
        have below := op.level_lt
        simp only [Expr.grade, Grade.operation] at grade
        omega
    | _ => cases grade

/-- The levels from an index on. The first operand starts where the whole expression does. -/
theorem levelsRule {first : Parser Expr} {start : List Token}
    (firstComplete : ∀ {operand between}, operand.Read Grade.unary start between →
      stops Grade.unary (next between) = true → first.Finds tokens operand between) {list : List Level} :
    ∀ {index : Nat} {value : Expr} {rest : List Token}, index ≤ 6 → levels.drop index = list →
      value.Read (Grade.operation + index) start rest →
      stops (Grade.operation + index) (next rest) = true →
      (Concrete.levelsRule grammar first list).Finds tokens value rest := by
  induction list with
  | nil =>
      intro index value rest below here read stopped
      have last : index = 6 := Nat.le_antisymm below (List.drop_eq_nil_iff.mp here)
      subst last
      exact firstComplete read stopped
  | cons level tighter ih =>
      intro index value rest below here read stopped
      obtain ⟨inside, further⟩ := levels_cons here
      have chained : groupsLeft (Grade.operation + index) :=
        .inr (.inl ⟨Nat.le_add_right _ _, Nat.add_lt_add_left inside _⟩)
      obtain ⟨left, between, leftRead, onward⟩ := read.spine chained
      exact (ih inside further leftRead (onward.stops stopped)).andThen
        (complete.levelTail here onward stopped)

theorem levelTailRule {index : Nat} {level : Level} {tighter : List Level} {left : Expr}
    (here : levels.drop index = level :: tighter)
    (onward : Continues (Grade.operation + index) left tokens value rest)
    (stopped : stops (Grade.operation + index) (next rest) = true) :
    (Concrete.levelTailRule grammar level tighter left).Finds tokens value rest := by
  cases onward with
  | done => exact .passed (level_absent here stopped) .pure
  | @more _ middle _ _ after _ step further =>
      cases step with
      | @operation op sign right between _ same read =>
          have same : index = op.level := Nat.add_left_cancel same
          subst same
          obtain ⟨inside, deeper⟩ := levels_cons here
          have rightRun := complete.levelsRule complete.unary inside deeper read
            (further.stops stopped)
          refine .taken ((level_eq_some here).mpr ⟨rfl, rfl⟩) (rightRun.andThen ?_)
          exact complete.levelTail here further stopped
      | sequence same => exact absurd same (by unfold Grade.operation; omega)
      | call same | member same | index same =>
          have inside := (levels_cons here).1
          simp only [Grade.call, Grade.operation] at same
          omega

/-- A conditional expression. An assignment may come after it if its last part ends in a block. -/
theorem conditionalRule {first : Parser Expr} {start : List Token}
    (firstComplete : ∀ {operand between}, operand.Read Grade.unary start between →
      stops Grade.unary (next between) = true → first.Finds tokens operand between)
    (read : value.Read Grade.conditional start rest)
    (stopped : stops Grade.conditional (next rest) = true)
    (closed : ∀ {loc test yes no}, value = .conditional loc test yes no → no.Closed rest) :
    (Concrete.conditionalRule grammar first).Finds tokens value rest := by
  by_cases tight : Grade.operation ≤ value.grade
  · have run := complete.levelsRule firstComplete (Nat.zero_le _) rfl
      ⟨read.spells, read.wellFormed, tight⟩ (stops_mono (by decide) stopped)
    refine run.andThen (.missing ?_ .pure)
    exact mark_ne_of_stops stopped rfl (Nat.le_refl _)
  · have grade : value.grade = 2 :=
      Nat.le_antisymm (Nat.le_of_lt_succ (Nat.lt_of_not_le tight)) read.grade_le
    have spelled := read.spells
    have formed := read.wellFormed
    cases value with
    | conditional _ test yes no =>
        obtain ⟨question, colon, between, after, testSpelled, yesSpelled, noSpelled, rfl⟩ := spelled
        obtain ⟨testFormed, testTight, yesFormed, yesTight, noFormed, noTight⟩ := formed
        have testRun := complete.levelsRule firstComplete (Nat.zero_le _) rfl
          ⟨testSpelled, testFormed, testTight⟩ rfl
        have yesRun := complete.assignExpr ⟨yesSpelled, yesFormed, yesTight⟩ (.inr rfl)
        have noRun := complete.assignExpr ⟨noSpelled, noFormed, noTight⟩ (closed rfl)
        exact testRun.andThen (.found (yesRun.andThen (.mark noRun.andPure)))
    | update _ _ before _ => cases before <;> cases grade
    | operation _ op _ _ =>
        simp only [Expr.grade, Grade.operation] at grade
        omega
    | _ => cases grade

theorem assignmentRule {first : Parser Expr} {start : List Token}
    (firstComplete : ∀ {operand between}, operand.Read Grade.unary start between →
      stops Grade.unary (next between) = true → first.Finds tokens operand between)
    (read : value.Read Grade.assignment start rest)
    (notArrow : ∀ {loc head body}, value ≠ .arrow loc head body) (closed : value.Closed rest) :
    (Concrete.assignmentRule grammar first).Finds tokens value rest := by
  by_cases assigns : ∃ loc op target assigned, value = .assign loc op target assigned
  · obtain ⟨loc, op, target, assigned, rfl⟩ := assigns
    obtain ⟨sign, between, targetSpelled, assignedSpelled, rfl⟩ := read.spells
    obtain ⟨targetFormed, left, assignedFormed, assignedTight⟩ := read.wellFormed
    have targetRun := complete.conditionalRule firstComplete
      ⟨targetSpelled, targetFormed, Expr.grade_of_leftSide left⟩
      (by simp [stops, joinGrade?_assign]) (fun same => .inl (by rw [same] at left; exact left))
    have assignedRun := complete.assignExpr ⟨assignedSpelled, assignedFormed, assignedTight⟩ closed
    exact targetRun.andThen (.taken (assignOp_eq_some.mpr rfl) assignedRun.andPure)
  · have tight := Expr.grade_of_plain read.grade_le notArrow
      fun same => assigns ⟨_, _, _, _, same⟩
    have stopped : stops Grade.assignment (next rest) = true := by
      rcases closed with block | stopped
      · rw [Expr.endsInBlock_of_grade tight] at block
        cases block
      · exact stopped
    have run := complete.conditionalRule firstComplete ⟨read.spells, read.wellFormed, tight⟩
      (stops_mono (by decide) stopped) (fun _ => .inr stopped)
    exact run.andThen (.passed (assignOp_absent stopped) .pure)

theorem arrowRule {sign : Loc} {head : ArrowHead} {body : ArrowBody}
    (spelled : body.Spells after rest) (formed : body.WellFormed)
    (closed : (Expr.arrow loc head body).Closed rest) :
    (Concrete.arrowRule grammar start head).Finds (⟨.mark .arrow, sign⟩ :: after)
      (.arrow (start.upTo body.loc) head body) rest := by
  refine .mark (.atMark ?_)
  cases body with
  | block body =>
      obtain ⟨inner, statements⟩ := body
      have run := complete.block spelled formed
      obtain ⟨first, last, inside, rfl, -⟩ := spelled
      exact run.map.andPure
  | expr value =>
      have different := not_next_of_starts (.mark .openBrace) spelled formed.1 rfl
      have run := complete.assignExpr ⟨spelled, formed.1, formed.2⟩ closed
      dsimp only
      rw [if_neg (by simpa using different)]
      exact run.map.andPure

/-- Where an expression in parentheses has been read already, the operand goes on from there. -/
theorem groupRule {inner operand : Expr} {first : Loc} {more : List Token}
    (run : (grammar .expr).Yields more inner (⟨.mark .closeParen, last⟩ :: after))
    (read : operand.Read Grade.unary (⟨.mark .openParen, first⟩ :: more) rest)
    (stopped : stops Grade.unary (next rest) = true) :
    (Concrete.postfixRule grammar (.group (first.upTo last) inner)).Finds after operand rest := by
  have tight : 10 ≤ operand.grade := by
    refine Nat.lt_of_le_of_ne read.grade_le fun same => ?_
    have spelled := read.spells
    cases operand with
    | unary _ op _ =>
        obtain ⟨sign, between, same, -⟩ := spelled
        cases op <;> cases same
    | update _ op before _ =>
        cases before with
        | false => cases same
        | true =>
            obtain ⟨sign, between, same, -⟩ := spelled
            cases op <;> cases same
    | operation _ op _ _ =>
        have below := op.level_lt
        simp only [Expr.grade, Grade.operation] at same
        omega
    | _ => cases same
  obtain ⟨primary, between, primaryRead, further⟩ :=
    complete.postfixRule ⟨read.spells, read.wellFormed, tight⟩ (stops_mono (by decide) stopped)
  have front := Expr.front (Expr.isLeaf_of_primary primaryRead.grade_le) primaryRead.spells
  cases front with
  | @group loc _ closed found _ _ foundSpelled =>
      obtain ⟨_, _, _, opening, spelledToo, rfl⟩ := primaryRead.spells
      cases opening
      -- Both readings of what is in the parentheses are the parser's.
      have foundRead : found.Read 0 more _ := ⟨spelledToo, primaryRead.wellFormed, Nat.zero_le _⟩
      obtain ⟨rfl, same⟩ := run.unique (complete.expr foundRead rfl)
      cases same
      exact further
  | arrowParen => exact absurd primaryRead.grade_le (by simp [Expr.grade, Grade.primary])
  | other starts => cases starts

theorem assignExprRule (read : value.Read Grade.assignment tokens rest)
    (closed : value.Closed rest) :
    (Concrete.assignExprRule grammar).Finds tokens value rest := by
  refine .after rfl ?_
  by_cases arrow : ∃ loc head body, value = .arrow loc head body
  · obtain ⟨loc, head, body, rfl⟩ := arrow
    obtain ⟨start, sign, after, headSpelled, bodySpelled, rfl⟩ := read.spells
    obtain ⟨headFormed, bodyFormed⟩ := read.wellFormed
    cases head with
    | name x =>
        obtain ⟨rfl, rfl⟩ := headSpelled
        exact .after rfl (complete.arrowRule bodySpelled bodyFormed closed)
    | empty =>
        obtain ⟨closing, rfl⟩ := headSpelled
        exact .after rfl (complete.arrowRule bodySpelled bodyFormed closed)
    | group inner =>
        obtain ⟨closing, between, rfl, innerSpelled⟩ := headSpelled
        have different := not_next_of_starts (.mark .closeParen) innerSpelled headFormed rfl
        have innerRun := complete.expr ⟨innerSpelled, headFormed, Nat.zero_le _⟩ rfl
        have arrowRun : (Concrete.arrowRule grammar start (.group inner)).Finds
            (⟨.mark .arrow, sign⟩ :: after) (.arrow (start.upTo body.loc) (.group inner) body) rest :=
          complete.arrowRule bodySpelled bodyFormed closed
        split
        next same => cases same
        next same =>
          cases same
          exact absurd rfl different
        next same =>
          cases same
          refine .after rfl (innerRun.andThen ?_)
          exact .mark (.atMark arrowRun)
        next other => exact absurd rfl (other _ _)
  · have notArrow : ∀ {loc head body}, value ≠ .arrow loc head body :=
      fun same => arrow ⟨_, _, _, same⟩
    have leading : Grade.unary ≤ value.leftmost.grade := by
      by_cases assigns : ∃ loc op target assigned, value = .assign loc op target assigned
      · obtain ⟨loc, op, target, assigned, rfl⟩ := assigns
        show Grade.unary ≤ target.leftmost.grade
        exact Expr.leftmost_grade read.wellFormed.1 (Expr.grade_of_leftSide read.wellFormed.2.1)
      · exact Expr.leftmost_grade read.wellFormed (Expr.grade_of_plain read.grade_le notArrow
          fun same => assigns ⟨_, _, _, _, same⟩)
    -- The token after a leading operand is no arrow.
    have unarrowed {more : List Token} (follow : value.leftmost = value ∧ more = rest ∨
        ∃ join, (next more).bind joinGrade? = some join ∧ join < Grade.primary) :
        next more ≠ some (.mark .arrow) := by
      rcases follow with ⟨whole, rfl⟩ | ⟨join, known, below⟩
      · rcases closed with block | stopped
        · rw [whole] at leading
          rw [Expr.endsInBlock_of_grade (Nat.le_trans (by decide) leading)] at block
          cases block
        · exact mark_ne_of_stops stopped rfl (by decide)
      · intro isArrow
        rw [isArrow] at known
        cases known
        exact Nat.lt_irrefl _ below
    split
    next text loc more =>
      rcases Expr.follows_name read.spells read.wellFormed with whole | ⟨join, known, below⟩
      · exact absurd rfl (unarrowed (.inl whole))
      · exact absurd rfl (unarrowed (.inr ⟨join, known, below leading⟩))
    next start closing more =>
      obtain ⟨inner, last, after, innerRead, -⟩ :=
        Expr.follows_group read.spells read.wellFormed leading
      exact absurd rfl
        (not_next_of_starts (.mark .closeParen) innerRead.spells innerRead.wellFormed rfl)
    next start more _ =>
      obtain ⟨inner, last, after, innerRead, follow⟩ :=
        Expr.follows_group read.spells read.wellFormed leading
      have notNext := unarrowed follow
      refine .after rfl ((complete.expr innerRead rfl).bind fun innerRun => .mark (.atMark ?_))
      rw [if_neg (by simpa using notNext)]
      exact complete.assignmentRule (complete.groupRule innerRun) read notArrow closed
    next => exact complete.assignmentRule complete.unary read notArrow closed

/-! ## Declarations -/

theorem namesRule {names : List Ident} (spelled : namesSpell names tokens rest)
    (nonempty : names ≠ []) (stopped : stops 0 (next rest) = true) :
    (Concrete.namesRule grammar).Finds tokens names rest := by
  cases names with
  | nil => exact absurd rfl nonempty
  | cons first others =>
      cases others with
      | nil =>
          obtain rfl : tokens = _ := spelled
          refine .ident (.missing ?_ .pure)
          exact mark_ne_of_stops stopped rfl (Nat.le_refl _)
      | cons second others =>
          obtain ⟨comma, between, rfl, othersSpelled⟩ := spelled
          have run := complete.names othersSpelled (by simp) stopped
          refine .ident (.found ?_)
          exact run.andPure

theorem declaratorRest {x : Ident} {init : Option Expr}
    (spelled : initSpells x loc init tokens rest) (formed : initWellFormed init)
    (stopped : stops Grade.assignment (next rest) = true) :
    (Concrete.declaratorRest grammar x).Finds tokens (.mk loc x init) rest := by
  cases init with
  | none =>
      obtain ⟨rfl, rfl⟩ := spelled
      refine .missing ?_ .pure
      exact mark_ne_of_stops stopped rfl (Nat.le_refl _)
  | some value =>
      obtain ⟨sign, between, rfl, valueSpelled, rfl⟩ := spelled
      have run := complete.assignExpr ⟨valueSpelled, formed.1, formed.2⟩ (.inr stopped)
      exact .found run.andPure

/-- The rest of a list of declarators after the name of the first one. -/
theorem declaratorsAfter {x : Ident} {init : Option Expr} {more : List Declarator}
    (spelled : declaratorsSpell (.mk loc x init :: more) (⟨.name x.name, x.loc⟩ :: tokens) rest)
    (formed : declaratorsWellFormed (.mk loc x init :: more))
    (stopped : stops 0 (next rest) = true) :
    (Concrete.declaratorRest grammar x >>= Concrete.declaratorsFrom grammar).Finds tokens
      (.mk loc x init :: more) rest := by
  obtain ⟨between, opening, rest'⟩ := spelled
  obtain ⟨-, rfl⟩ := List.cons.inj opening
  cases more with
  | nil =>
      have run := complete.declaratorRest rest' formed.1 (stops_mono (by decide) stopped)
      refine run.andThen (.missing ?_ .pure)
      exact mark_ne_of_stops stopped rfl (Nat.le_refl _)
  | cons second others =>
      obtain ⟨comma, after, initSpelled, othersSpelled⟩ := rest'
      have firstRun := complete.declaratorRest initSpelled formed.1 rfl
      have othersRun := complete.declarators othersSpelled formed.2 (by simp) stopped
      refine firstRun.andThen (.found ?_)
      exact othersRun.andPure

theorem declaratorsRule {items : List Declarator} (spelled : declaratorsSpell items tokens rest)
    (formed : declaratorsWellFormed items) (nonempty : items ≠ [])
    (stopped : stops 0 (next rest) = true) :
    (Concrete.declaratorsRule grammar).Finds tokens items rest := by
  cases items with
  | nil => exact absurd rfl nonempty
  | cons first others =>
      obtain ⟨loc, x, init⟩ := first
      have ⟨between, opening, _⟩ := spelled
      obtain rfl : tokens = _ := opening
      exact .ident (complete.declaratorsAfter spelled formed stopped)

/-! ## Parts of statements -/

theorem exprSemicolon (spelled : value.Spells tokens (⟨.mark .semicolon, last⟩ :: rest))
    (formed : value.WellFormed) :
    (Concrete.exprSemicolon grammar).Finds tokens (value, last) rest :=
  (complete.expr ⟨spelled, formed, Nat.zero_le _⟩ rfl).andThen (.mark .pure)

theorem parenthesized {opened : Loc} {inner : List Token}
    (spelled : value.Spells inner (⟨.mark .closeParen, closed⟩ :: rest))
    (formed : value.WellFormed) :
    (Concrete.parenthesized grammar).Finds (⟨.mark .openParen, opened⟩ :: inner) value rest :=
  .mark ((complete.expr ⟨spelled, formed, Nat.zero_le _⟩ rfl).andThen (.mark .pure))

theorem exprUnless {close : Mark} {value : Option Expr} (closes : ClosesExpr close)
    (spelled : exprOptionSpells value tokens (⟨.mark close, last⟩ :: rest))
    (formed : exprOptionWellFormed value) :
    (Concrete.exprUnless grammar close).Finds tokens value (⟨.mark close, last⟩ :: rest) := by
  refine .atMark ?_
  cases value with
  | none =>
      obtain rfl : tokens = _ := spelled
      simp only [next_cons, beq_self_eq_true, if_true]
      exact .pure
  | some value =>
      have different := not_next_of_starts (.mark close) spelled formed closes.2
      rw [if_neg (by simpa using different)]
      have run := complete.expr ⟨spelled, formed, Nat.zero_le _⟩ (stops_mark closes.1 0)
      exact run.andPure

theorem blockRule {body : Block} (spelled : body.Spells tokens rest) (formed : body.WellFormed) :
    (Concrete.blockRule grammar).Finds tokens body rest := by
  obtain ⟨loc, body⟩ := body
  obtain ⟨first, last, inner, rfl, bodySpelled, rfl⟩ := spelled
  have run : (grammar (.statements .block)).Finds inner body _ :=
    complete.statements bodySpelled formed rfl
  refine .mark (run.andThen ?_)
  exact .mark .pure

theorem statementsRule {until_ : ListEnd} {body : List Stmt}
    (spelled : stmtsSpell body tokens rest) (formed : stmtsWellFormed body)
    (stopped : until_.stops (next rest) = true) :
    (Concrete.statementsRule grammar until_).Finds tokens body rest := by
  refine .peek? ?_
  cases body with
  | nil =>
      obtain rfl : tokens = rest := spelled
      rw [if_pos stopped]
      exact .pure
  | cons first others =>
      obtain ⟨between, firstSpelled, othersSpelled⟩ := spelled
      obtain ⟨terminal, known, starts⟩ := Stmt.starts firstSpelled formed.1
      have ends : next between ≠ some (.keyword .else) ∧
          next between ≠ some (.keyword .finally) := by
        cases others with
        | nil =>
            obtain rfl : between = rest := othersSpelled
            exact ListEnd.ends stopped
        | cons second others =>
            obtain ⟨after, secondSpelled, -⟩ := othersSpelled
            obtain ⟨other, knownToo, startsToo⟩ := Stmt.starts secondSpelled formed.2.1
            rw [knownToo]
            constructor <;> rintro ⟨⟩ <;> cases startsToo
      have firstRun := complete.statement ⟨firstSpelled, formed.1, fun _ => ends.1⟩ ends.2
      have othersRun := complete.statements othersSpelled formed.2 stopped
      rw [known, if_neg (by simp [ListEnd.not_stops starts])]
      exact firstRun.andThen (othersRun.andPure)

/-! ## Statements -/

theorem functionRule {name : Ident} {params : List Ident} {body : Block} {opened : Loc}
    {inner : List Token} (named : namesSpell params inner (⟨.mark .closeParen, closed⟩ :: after))
    (spelled : body.Spells after rest) (formed : body.WellFormed) :
    (Concrete.functionRule grammar start).Finds
      (⟨.name name.name, name.loc⟩ :: ⟨.mark .openParen, opened⟩ :: inner)
      (.function (start.upTo body.loc) name params body) rest := by
  refine .ident ((complete.paramsRule named).andThen ?_)
  exact (complete.block spelled formed).andPure

theorem ifRule {test : Expr} {yes : Stmt} {no : Option Stmt}
    (read : (Stmt.ifElse loc test yes no).Read (⟨.keyword .if, start⟩ :: tokens) rest)
    (ends : next rest ≠ some (.keyword .finally)) :
    (Concrete.ifRule grammar start).Finds tokens (.ifElse loc test yes no) rest := by
  obtain ⟨first, opened, closed, inner, after, between, same, testSpelled, yesSpelled, noSpelled, rfl⟩ :=
    read.spells
  cases same
  obtain ⟨testFormed, yesFormed, noFormed, dangling⟩ := read.wellFormed
  have testRun : (Concrete.parenthesized grammar).Finds (⟨.mark .openParen, opened⟩ :: inner) test
      after := complete.parenthesized testSpelled testFormed
  refine testRun.andThen ?_
  cases no with
  | none =>
      obtain rfl : between = rest := noSpelled
      have noElse := read.no_else rfl
      have yesRun := complete.statement ⟨yesSpelled, yesFormed, fun _ => noElse⟩ ends
      exact yesRun.andThen (.missing noElse .pure)
  | some no =>
      obtain ⟨word, last, rfl, noSpelled⟩ := noSpelled
      have kept := dangling rfl
      have yesRun := complete.statement
        ⟨yesSpelled, yesFormed, fun takes => by rw [kept] at takes; cases takes⟩ nofun
      have noRun := complete.statement ⟨noSpelled, noFormed, read.no_else⟩ ends
      exact yesRun.andThen (.found noRun.andPure)

theorem forLoopRule {init : Option ForInit} {test update : Option Expr} {one two : Loc}
    {middle last : List Token}
    (testSpelled : exprOptionSpells test middle (⟨.mark .semicolon, two⟩ :: last))
    (updateSpelled : exprOptionSpells update last (⟨.mark .closeParen, closed⟩ :: after))
    (testFormed : exprOptionWellFormed test) (updateFormed : exprOptionWellFormed update)
    (read : body.Read after rest) (ends : next rest ≠ some (.keyword .finally)) :
    (Concrete.forLoopRule grammar start init).Finds (⟨.mark .semicolon, one⟩ :: middle)
      (.forLoop (start.upTo body.loc) init test update body) rest := by
  have testRun := complete.exprUnless ⟨rfl, rfl⟩ testSpelled testFormed
  have updateRun := complete.exprUnless ⟨rfl, rfl⟩ updateSpelled updateFormed
  refine .mark (testRun.andThen ?_)
  refine .mark (updateRun.andThen ?_)
  refine .mark ?_
  exact (complete.statement read ends).andPure

theorem forEachRule {kind : EachKind} {target : ForTarget} {subject : Expr} {middle : List Token}
    (spelled : subject.Spells middle (⟨.mark .closeParen, closed⟩ :: after))
    (formed : subject.WellFormed) (tight : kind = .values → Grade.assignment ≤ subject.grade)
    (read : body.Read after rest) (ends : next rest ≠ some (.keyword .finally)) :
    (Concrete.forEachRule grammar start kind target).Finds middle
      (.forEach (start.upTo body.loc) kind target subject body) rest := by
  have bodyRun := complete.statement read ends
  have onward : (Parser.mark .closeParen >>= fun _ => grammar .statement >>= fun body =>
      pure (Stmt.forEach (start.upTo body.loc) kind target subject body) : Parser Stmt).Finds
      (⟨.mark .closeParen, closed⟩ :: after)
      (.forEach (start.upTo body.loc) kind target subject body) rest :=
    .mark bodyRun.andPure
  cases kind with
  | keys =>
      have run := complete.expr ⟨spelled, formed, Nat.zero_le _⟩ rfl
      exact run.andThen onward
  | values =>
      have run := complete.assignExpr ⟨spelled, formed, tight rfl⟩ (.inr rfl)
      exact run.andThen onward

theorem forRule_loop {init : Option ForInit} {test update : Option Expr}
    (read : (Stmt.forLoop loc init test update body).Read (⟨.keyword .for, start⟩ :: tokens) rest)
    (ends : next rest ≠ some (.keyword .finally)) :
    (Concrete.forRule grammar start).Finds tokens (.forLoop loc init test update body) rest := by
  obtain ⟨first, opened, one, two, closed, begin_, middle, last, after, same, initSpelled, testSpelled,
    updateSpelled, bodySpelled, rfl⟩ := read.spells
  cases same
  obtain ⟨initFormed, testFormed, updateFormed, bodyFormed⟩ := read.wellFormed
  have onward : (Concrete.forLoopRule grammar start init).Finds (⟨.mark .semicolon, one⟩ :: middle)
      (.forLoop (start.upTo body.loc) init test update body) rest :=
    complete.forLoopRule testSpelled updateSpelled testFormed updateFormed
      ⟨bodySpelled, bodyFormed, read.no_else⟩ ends
  refine .mark ?_
  match init with
  | none =>
      obtain rfl : begin_ = _ := initSpelled
      exact .passed rfl onward
  | some (.declaration item) =>
      obtain ⟨place, kind, items⟩ := item
      obtain ⟨word, between, rfl, itemsSpelled, rfl⟩ := initSpelled
      obtain ⟨nonempty, itemsFormed⟩ := initFormed
      cases items with
      | nil => exact absurd rfl nonempty
      | cons item more =>
          obtain ⟨itemLoc, x, value⟩ := item
          have ⟨inside, opening, valueSpelled⟩ := itemsSpelled
          obtain rfl : between = _ := opening
          have run := complete.declaratorsAfter itemsSpelled itemsFormed rfl
          have absent : (next inside).bind eachKind = none := by
            cases more with
            | nil => exact eachKind_absent_init valueSpelled rfl
            | cons second others =>
                obtain ⟨comma, further, firstSpelled, -⟩ := valueSpelled
                exact eachKind_absent_init firstSpelled rfl
          refine .taken (declKind_eq_some.mpr rfl) ?_
          exact .ident (.passed absent (run.nested onward))
  | some (.expr value) =>
      have exprRun := complete.expr ⟨initSpelled, initFormed, Nat.zero_le _⟩ rfl
      refine .passed (declKind_absent initSpelled initFormed) (.after rfl ?_)
      split
      next text loc second afterSecond =>
        have absent : eachKind second.terminal = none := eachKind_absent initSpelled initFormed
        rw [absent]
        exact .after rfl (exprRun.andThen onward)
      next =>
        have different := not_next_of_starts (.mark .semicolon) initSpelled initFormed rfl
        refine .atMark ?_
        rw [if_neg (by simpa using different)]
        exact exprRun.andThen onward

theorem forRule_each {kind : EachKind} {target : ForTarget} {subject : Expr}
    (read : (Stmt.forEach loc kind target subject body).Read (⟨.keyword .for, start⟩ :: tokens) rest)
    (ends : next rest ≠ some (.keyword .finally)) :
    (Concrete.forRule grammar start).Finds tokens (.forEach loc kind target subject body) rest := by
  obtain ⟨first, opened, word, closed, begin_, middle, after, same, targetSpelled, subjectSpelled,
    bodySpelled, rfl⟩ := read.spells
  cases same
  obtain ⟨subjectFormed, tight, bodyFormed⟩ := read.wellFormed
  have onward : (Concrete.forEachRule grammar start kind target).Finds middle
      (.forEach (start.upTo body.loc) kind target subject body) rest :=
    complete.forEachRule subjectSpelled subjectFormed tight ⟨bodySpelled, bodyFormed, read.no_else⟩
      ends
  refine .mark ?_
  cases target with
  | declared place declared x =>
      obtain ⟨keyword, rfl, rfl⟩ := targetSpelled
      refine .taken (declKind_eq_some.mpr rfl) ?_
      refine .ident ?_
      exact .taken (eachKind_eq_some.mpr rfl) onward
  | existing x =>
      obtain rfl : begin_ = _ := targetSpelled
      refine .passed rfl (.after rfl ?_)
      have known : eachKind (.keyword (eachKeyword kind)) = some kind := eachKind_eq_some.mpr rfl
      simp only [known]
      exact .after rfl onward

theorem whileRule {test : Expr}
    (read : (Stmt.whileLoop loc test body).Read (⟨.keyword .while, start⟩ :: tokens) rest)
    (ends : next rest ≠ some (.keyword .finally)) :
    (Concrete.whileRule grammar start).Finds tokens (.whileLoop loc test body) rest := by
  obtain ⟨first, opened, closed, inner, after, same, testSpelled, bodySpelled, rfl⟩ := read.spells
  cases same
  obtain ⟨testFormed, bodyFormed⟩ := read.wellFormed
  refine (complete.parenthesized testSpelled testFormed).andThen ?_
  exact (complete.statement ⟨bodySpelled, bodyFormed, read.no_else⟩ ends).andPure

theorem doWhileRule {test : Expr}
    (spelled : (Stmt.doWhile loc body test).Spells (⟨.keyword .do, start⟩ :: tokens) rest)
    (formed : (Stmt.doWhile loc body test).WellFormed) :
    (Concrete.doWhileRule grammar start).Finds tokens (.doWhile loc body test) rest := by
  obtain ⟨first, word, opened, closed, last, inner, after, same, bodySpelled, testSpelled, rfl⟩ := spelled
  cases same
  have bodyRun := complete.statement ⟨bodySpelled, formed.1, fun _ => nofun⟩ nofun
  refine bodyRun.andThen (.keyword ?_)
  refine (complete.parenthesized testSpelled formed.2).andThen ?_
  exact .mark .pure

omit complete in
theorem jumpRest {label : Option Ident}
    (spelled : labelSpells label tokens (⟨.mark .semicolon, last⟩ :: rest)) :
    Concrete.jumpRest.Yields tokens (label, last) rest := by
  cases label with
  | none =>
      obtain rfl : tokens = _ := spelled
      exact ident?_bind.mpr (.inr ⟨fun _ => nofun, mark_pure_iff.mpr ⟨last, rfl, rfl⟩⟩)
  | some x =>
      obtain rfl : tokens = _ := spelled
      exact ident?_bind.mpr (.inl ⟨x, _, rfl, mark_pure_iff.mpr ⟨last, rfl, rfl⟩⟩)

theorem catchRule {clause : CatchClause}
    (spelled : handlerSpells (some clause) (⟨.keyword .catch, start⟩ :: tokens) rest)
    (formed : handlerWellFormed (some clause)) :
    (Concrete.catchRule grammar start).Finds tokens clause rest := by
  obtain ⟨loc, param, body⟩ := clause
  obtain ⟨first, opened, closed, after, same, bodySpelled, rfl⟩ := spelled
  cases same
  refine .mark (.ident (.mark ?_))
  exact (complete.block bodySpelled formed).andPure

theorem tryRule {body : Block} {handler : Option CatchClause} {finalizer : Option Block}
    (spelled : (Stmt.tryCatch loc body handler finalizer).Spells (⟨.keyword .try, start⟩ :: tokens) rest)
    (formed : (Stmt.tryCatch loc body handler finalizer).WellFormed)
    (ends : next rest ≠ some (.keyword .finally)) :
    (Concrete.tryRule grammar start).Finds tokens (.tryCatch loc body handler finalizer) rest := by
  obtain ⟨first, inner, between, after, same, bodySpelled, handlerSpelled, finalizerSpelled, rfl⟩ :=
    spelled
  cases same
  obtain ⟨bodyFormed, handlerFormed, finalizerFormed, either⟩ := formed
  refine (complete.block bodySpelled bodyFormed).andThen ?_
  cases handler with
  | none =>
      obtain rfl : between = after := handlerSpelled
      cases finalizer with
      | none => simp at either
      | some finalizer =>
          obtain ⟨word, inside, rfl, finalizerSpelled⟩ := finalizerSpelled
          refine .passed rfl (.keyword ?_)
          exact (complete.block finalizerSpelled finalizerFormed).andPure
  | some clause =>
      have ⟨place, param, inside⟩ := clause
      have ⟨word, opened, closed, behind, opening, _⟩ := handlerSpelled
      cases opening
      have clauseRun := complete.catchRule handlerSpelled handlerFormed
      refine .taken rfl (clauseRun.andThen ?_)
      cases finalizer with
      | none =>
          obtain rfl : after = rest := finalizerSpelled
          exact .missing ends .pure
      | some finalizer =>
          obtain ⟨word, inside, rfl, finalizerSpelled⟩ := finalizerSpelled
          exact .found ((complete.block finalizerSpelled finalizerFormed).andPure)

theorem caseBody {body : List Stmt} {colon : Loc} {between : List Token}
    (spelled : stmtsSpell body between after) (formed : stmtsWellFormed body)
    (stopped : ListEnd.case.stops (next after) = true) :
    (Concrete.caseBody grammar).Finds (⟨.mark .colon, colon⟩ :: between)
      (body, (body.getLast?.map Stmt.loc).getD colon) after :=
  .mark ((complete.statements spelled formed stopped).andPure)

theorem casesRule {items : List Case} (spelled : casesSpell items tokens rest)
    (formed : casesWellFormed items) (closing : next rest = some (.mark .closeBrace)) :
    (Concrete.casesRule grammar).Finds tokens items rest := by
  cases items with
  | nil =>
      obtain rfl : tokens = rest := spelled
      refine .passed (by rw [closing]; rfl) ?_
      exact .passed (by rw [closing]; rfl) .pure
  | cons item more =>
      obtain ⟨loc, test, body⟩ := item
      obtain ⟨first, colon, between, after, testSpelled, bodySpelled, moreSpelled, rfl⟩ := spelled
      obtain ⟨testFormed, bodyFormed, moreFormed⟩ := formed
      have bodyRun : (Concrete.caseBody grammar).Finds (⟨.mark .colon, colon⟩ :: between) _ after :=
        complete.caseBody bodySpelled bodyFormed (stops_case moreSpelled closing)
      have moreRun := complete.cases moreSpelled moreFormed closing
      cases test with
      | none =>
          obtain rfl : tokens = _ := testSpelled
          refine .passed rfl (.taken rfl ?_)
          exact bodyRun.andThen (moreRun.andPure)
      | some test =>
          obtain ⟨inner, rfl, testSpelled⟩ := testSpelled
          have testRun := complete.expr ⟨testSpelled, testFormed, Nat.zero_le _⟩ rfl
          refine .taken rfl (testRun.andThen ?_)
          exact bodyRun.andThen (moreRun.andPure)

theorem switchRule {subject : Expr} {items : List Case}
    (spelled : (Stmt.switch loc subject items).Spells (⟨.keyword .switch, start⟩ :: tokens) rest)
    (formed : (Stmt.switch loc subject items).WellFormed) :
    (Concrete.switchRule grammar start).Finds tokens (.switch loc subject items) rest := by
  obtain ⟨first, opened, closed, brace, last, inner, after, same, subjectSpelled, itemsSpelled, rfl⟩ :=
    spelled
  cases same
  have itemsRun := complete.cases itemsSpelled formed.2 rfl
  refine (complete.parenthesized subjectSpelled formed.1).andThen ?_
  refine .mark (itemsRun.andThen ?_)
  exact .mark .pure

theorem exprStatement (spelled : value.Spells tokens (⟨.mark .semicolon, last⟩ :: rest))
    (formed : value.WellFormed) :
    (Concrete.exprStatement grammar).Finds tokens (.expr (value.loc.upTo last) value) rest :=
  (complete.exprSemicolon spelled formed).andPure

theorem statementRule_expr (spelled : value.Spells tokens (⟨.mark .semicolon, last⟩ :: rest))
    (formed : value.WellFormed) :
    (Concrete.statementRule grammar).Finds tokens (.expr (value.loc.upTo last) value) rest := by
  have run := complete.exprStatement spelled formed
  obtain ⟨terminal, known, starts⟩ := Expr.starts spelled formed
  refine .after rfl ?_
  split
  next word start more =>
    cases known
    cases word with
    | function =>
        refine .peekSecond? ?_
        rw [List.tail_cons, Expr.follows_function spelled formed]
        exact run
    | typeof | true | false | null | this => exact run
    | _ => cases starts
  next brace more =>
    cases known
    cases starts
  next loc more =>
    cases known
    cases starts
  next text loc colon more =>
    rcases Expr.follows_name spelled formed with ⟨-, same⟩ | ⟨join, joined, -⟩
    · cases same
    · cases joined
  next => exact run

theorem statementRule {stmt : Stmt} (read : stmt.Read tokens rest)
    (ends : next rest ≠ some (.keyword .finally)) :
    (Concrete.statementRule grammar).Finds tokens stmt rest := by
  have spelled := read.spells
  have formed := read.wellFormed
  cases stmt with
  | declaration _ item =>
      obtain ⟨place, kind, items⟩ := item
      obtain ⟨last, ⟨first, between, rfl, itemsSpelled, rfl⟩, rfl⟩ := spelled
      have itemsRun := complete.declarators itemsSpelled formed.2 formed.1 rfl
      cases kind <;> exact .after rfl (.after rfl (itemsRun.andThen (.mark .pure)))
  | function _ name names body =>
      obtain ⟨first, opened, closed, inner, after, rfl, named, bodySpelled, rfl⟩ := spelled
      exact .after rfl (.peekSecond? (.after rfl (complete.functionRule named bodySpelled formed)))
  | block body =>
      obtain ⟨loc, body⟩ := body
      have run := complete.block spelled formed
      obtain ⟨first, last, inner, rfl, -⟩ := spelled
      exact .after rfl (run.andPure)
  | ifElse _ test yes no =>
      obtain ⟨first, opened, closed, inner, after, between, rfl, -⟩ := spelled
      have run := complete.ifRule read ends
      exact .after rfl (.after rfl run)
  | forLoop _ init test update body =>
      obtain ⟨first, opened, one, two, closed, begin_, middle, last, after, rfl, -⟩ := spelled
      have run := complete.forRule_loop read ends
      exact .after rfl (.after rfl run)
  | forEach _ kind target subject body =>
      obtain ⟨first, opened, word, closed, begin_, middle, after, rfl, -⟩ := spelled
      have run := complete.forRule_each read ends
      exact .after rfl (.after rfl run)
  | whileLoop _ test body =>
      obtain ⟨first, opened, closed, inner, after, rfl, -⟩ := spelled
      have run := complete.whileRule read ends
      exact .after rfl (.after rfl run)
  | doWhile _ body test =>
      have ⟨first, word, opened, closed, last, inner, after, opening, _⟩ := spelled
      obtain rfl : tokens = _ := opening
      have run := complete.doWhileRule spelled formed
      exact .after rfl (.after rfl run)
  | returns _ value =>
      obtain ⟨first, last, inner, rfl, valueSpelled, rfl⟩ := spelled
      have run := complete.exprUnless ⟨rfl, rfl⟩ valueSpelled formed
      refine .after rfl (.after rfl (run.andThen ?_))
      exact .mark .pure
  | breaks _ label | continues _ label =>
      obtain ⟨first, last, inner, rfl, labelSpelled, rfl⟩ := spelled
      exact .after rfl (.after rfl (.after (jumpRest labelSpelled) .pure))
  | throws _ value =>
      obtain ⟨first, last, inner, rfl, valueSpelled, rfl⟩ := spelled
      have run := complete.exprSemicolon valueSpelled formed
      exact .after rfl (.after rfl (run.andPure))
  | tryCatch _ body handler finalizer =>
      have ⟨first, inner, between, after, opening, _⟩ := spelled
      obtain rfl : tokens = _ := opening
      have run := complete.tryRule spelled formed ends
      exact .after rfl (.after rfl run)
  | switch _ subject items =>
      have ⟨first, opened, closed, brace, last, inner, after, opening, _⟩ := spelled
      obtain rfl : tokens = _ := opening
      have run := complete.switchRule spelled formed
      exact .after rfl (.after rfl run)
  | labeled _ label body =>
      obtain ⟨colon, after, rfl, bodySpelled, rfl⟩ := spelled
      have run := complete.statement ⟨bodySpelled, formed, read.no_else⟩ ends
      exact .after rfl (.after rfl run.andPure)
  | expr _ value =>
      obtain ⟨last, valueSpelled, rfl⟩ := spelled
      exact complete.statementRule_expr valueSpelled formed
  | empty =>
      obtain rfl : tokens = _ := spelled
      exact .after rfl (.after rfl .pure)

theorem rule : (Concrete.rule grammar).Complete where
  expr := complete.exprRule
  exprTail := complete.exprTailRule
  assignExpr := complete.assignExprRule
  exprList := complete.exprListRule
  levelTail := complete.levelTailRule
  unary := complete.unaryRule
  callTail := complete.callTailRule
  names := complete.namesRule
  declarators := complete.declaratorsRule
  block := complete.blockRule
  statement := complete.statementRule
  statements := complete.statementsRule
  cases := complete.casesRule

end Grammar.Complete

theorem parseGoal_complete (depth : Nat) : Grammar.Complete (parseGoal depth) := by
  induction depth with
  | zero => constructor <;> intros <;> exact .inl rfl
  | succ depth ih => exact ih.rule

/-- Programs are read with any bound on the depth that is large enough. -/
theorem parseGoal_yields {body : List Stmt} {depth : Nat} (le : depthFor tokens.length ≤ depth)
    (spelled : stmtsSpell body tokens []) (formed : stmtsWellFormed body) :
    (parseGoal depth (.statements .program)).Yields tokens body [] :=
  ((parseGoal_complete depth).statements spelled formed rfl).resolve_left (run_ne_depth le)

/-- The statements of a program are the well-formed ones that spell its tokens. -/
theorem parse_eq_ok_iff {body : List Stmt} :
    parse tokens = .ok body ↔ stmtsSpell body tokens [] ∧ stmtsWellFormed body := by
  refine ⟨parse_sound, fun ⟨spelled, formed⟩ => ?_⟩
  unfold parse
  rw [show StateT.run _ tokens = _ from parseGoal_yields (Nat.le_refl _) spelled formed]
  rfl

end LoopCapture.Concrete
