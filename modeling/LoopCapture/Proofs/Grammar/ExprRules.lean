import LoopCapture.Proofs.Concrete.Soundness
import LoopCapture.Proofs.Grammar.Basic
import LoopCapture.Proofs.Grammar.Prediction

/-!
# The rules of the parser predict the grammar

Every goal of the parser predicts what its symbol derives. Between two tokens that are taken the
goals call each other in the order of their ranks only, so the bound on the depth is never met.
-/

set_option autoImplicit false

namespace LoopCapture.Concrete

open Parser (Predicts Result)

/-- Symbols derive words by any derivation. -/
abbrev Derived (symbol : Nonterminal) : symbol.Tree → List Terminal → Prop :=
  Derives false symbol

/-- The words that make an expression of a stratum into another one of a looser stratum. -/
def GoesOn (tight loose : Nat) (left value : Expr) (word : List Terminal) : Prop :=
  ∀ before, Derived (.expr tight) left before → Derived (.expr loose) value (before ++ word)

/-! ## Expressions after their first token -/

def arrayRest (grammar : Grammar) (start : Loc) : Parser Expr := do
  let (items, stop) ← exprsUpTo grammar .closeBracket
  return .array (start.upTo stop) items

def groupRest (grammar : Grammar) (start : Loc) : Parser Expr := do
  let inner ← grammar .expr
  let stop ← Parser.mark .closeParen
  return .group (start.upTo stop) inner

def functionRest (grammar : Grammar) (start : Loc) : Parser Expr := do
  let params ← paramsRule grammar
  let body ← grammar .block
  return .function (start.upTo body.loc) params body

def constantRule : Parser Expr := do
  let (value, loc) ← Parser.take constant
  return .constant loc value

/-- An expression without commas that starts with a parenthesis, after it, if no other one closes it
at once. -/
def parenRest (grammar : Grammar) (start : Loc) : Parser Expr := do
  let inner ← grammar .expr
  let stop ← Parser.mark .closeParen
  if ← Parser.atMark .arrow then arrowRule grammar start (.group inner)
  else assignmentRule grammar (postfixRule grammar (.group (start.upTo stop) inner))

/-- All goals predict their symbols. -/
structure Grammar.Predicts (bound : Nat) (shallow deep : Grammar) : Prop where
  expr : Parser.Predicts bound 3 (shallow .expr) (deep .expr) (Derived (.expr 0))
  exprTail : ∀ left, Parser.Predicts bound 1 (shallow (.exprTail left)) (deep (.exprTail left))
    (GoesOn 0 0 left)
  assignExpr : Parser.Predicts bound 2 (shallow .assignExpr) (deep .assignExpr)
    (Derived (.expr Grade.assignment))
  exprList : Parser.Predicts bound 3 (shallow .exprList) (deep .exprList) (Derived .exprs)
  levelTail : ∀ {index level tighter} left, levels.drop index = level :: tighter →
    Parser.Predicts bound 1 (shallow (.levelTail level tighter left))
      (deep (.levelTail level tighter left)) 
      (GoesOn (Grade.operation + index) (Grade.operation + index) left)
  unary : Parser.Predicts bound 1 (shallow .unary) (deep .unary) (Derived (.expr Grade.unary))
  callTail : ∀ callee, Parser.Predicts bound 1 (shallow (.callTail callee))
    (deep (.callTail callee)) (GoesOn Grade.call Grade.call callee)
  names : Parser.Predicts bound 1 (shallow .names) (deep .names) (Derived .names)
  declarators : Parser.Predicts bound 1 (shallow .declarators) (deep .declarators)
    (Derived .declarators)
  block : Parser.Predicts bound 1 (shallow .block) (deep .block) (Derived .block)
  statement : Parser.Predicts bound 4 (shallow .statement) (deep .statement) (Derived .statement)
  statements : ∀ until_, Parser.Predicts bound 5 (shallow (.statements until_))
    (deep (.statements until_)) (Derived .statements)
  cases : Parser.Predicts bound 1 (shallow .cases) (deep .cases) (Derived .cases)

namespace Grammar.Predicts

variable {bound slack : Nat} {shallow deep : Grammar}
  (predicts : Grammar.Predicts bound shallow deep)

/-- A rule predicts a language if the goals that it calls predict theirs. -/
abbrev Rule {α : Type} (_ : Grammar.Predicts bound shallow deep) (slack : Nat)
    (rule : Grammar → Parser α) (words : α → List Terminal → Prop) : Prop :=
  Parser.Predicts bound slack (rule shallow) (rule deep) words

include predicts

theorem exprRule : predicts.Rule 2 exprRule (Derived (.expr 0)) := by
  refine predicts.assignExpr.bind (Nat.le_refl _) fun left taken derived => ?_
  refine (predicts.exprTail left).weaken (by omega) fun value word goesOn => ?_
  exact goesOn taken derived.tighter

theorem exprTailRule (left : Expr) : predicts.Rule 0 (exprTailRule · left) (GoesOn 0 0 left) := by
  refine .mark?_bind ?_ ?_
  · refine predicts.assignExpr.bind (by omega) fun right taken derived => ?_
    refine (predicts.exprTail _).weaken (by omega) fun value word goesOn before leftDerived => ?_
    have whole := goesOn _ (.sequence leftDerived derived)
    simpa using whole
  · refine .pure fun before leftDerived => ?_
    simpa using leftDerived

theorem exprListRule : predicts.Rule 2 exprListRule (Derived .exprs) := by
  refine predicts.assignExpr.bind (Nat.le_refl _) fun first taken derived => ?_
  refine .mark?_bind ?_ ?_
  · refine predicts.exprList.bind (by omega) fun rest others restDerived => ?_
    refine .pure ?_
    simpa using Derives.moreExprs derived restDerived
  · refine .pure ?_
    simpa using Derives.oneExpr derived

theorem exprsUpTo (close : Mark) (enough : 3 ≤ slack) : predicts.Rule slack (exprsUpTo · close)
      fun result word => ∃ items, word = items ++ [.mark close] ∧ Derived .args result.1 items := by
  refine .atMark_bind fun found => ?_
  cases found with
  | true =>
      refine .mark_bind fun loc => ?_
      exact .pure ⟨[], rfl, .noArgs⟩
  | false =>
      refine predicts.exprList.bind enough fun items taken derived => ?_
      refine .mark_bind fun loc => ?_
      exact .pure ⟨taken, rfl, .args derived⟩

theorem paramsRule : predicts.Rule slack paramsRule
    fun params word => ∃ names, word = .mark .openParen :: (names ++ [.mark .closeParen]) ∧
      Derived .params params names := by
  refine .mark_bind fun opened => ?_
  refine .atMark_bind fun found => ?_
  cases found with
  | true =>
      simp only [↓reduceIte, pure_bind]
      refine .mark_bind fun loc => ?_
      exact .pure ⟨[], rfl, .noParams⟩
  | false =>
      refine predicts.names.bind (by omega) fun names taken derived => ?_
      refine .mark_bind fun loc => ?_
      exact .pure ⟨taken, rfl, .params derived⟩

/-! ## Operands -/

theorem arrayRest (start : Loc) : predicts.Rule (slack + 8) (Concrete.arrayRest · start)
    fun value word => Derived (.expr Grade.primary) value (.mark .openBracket :: word) := by
  refine (predicts.exprsUpTo .closeBracket (by omega)).bind (Nat.le_refl _) fun result taken known => ?_
  obtain ⟨items, rfl, derived⟩ := known
  refine .pure ?_
  simpa using Derives.array derived

theorem groupRest (start : Loc) : predicts.Rule (slack + 8) (Concrete.groupRest · start)
    fun value word => Derived (.expr Grade.primary) value (.mark .openParen :: word) := by
  refine predicts.expr.bind (by omega) fun inner taken derived => ?_
  refine .mark_bind fun stop => .pure ?_
  simpa using Derives.group derived

theorem functionRest (start : Loc) : predicts.Rule (slack + 8) (Concrete.functionRest · start)
    fun value word => Derived (.expr Grade.primary) value (.keyword .function :: word) := by
  refine predicts.paramsRule.bind (Nat.le_refl _) fun params taken known => ?_
  obtain ⟨names, rfl, paramsDerived⟩ := known
  refine predicts.block.bind (by omega) fun body block derived => .pure ?_
  simpa using Derives.function paramsDerived derived

omit predicts in
theorem constantRule : Parser.Predicts bound slack Concrete.constantRule Concrete.constantRule
    (Derived (.expr Grade.primary)) := by
  refine .take_bind ⟨.keyword .this, .this, rfl⟩ fun terminal value loc known => ?_
  rw [constant_eq_some.mp known]
  exact .pure .constant

theorem primaryRule : predicts.Rule slack primaryRule (Derived (.expr Grade.primary)) where
  nonempty := ⟨.name ⟨"", ⟨0, 0, 0, 0⟩⟩, _, .name⟩
  predicts tokens := by
    match tokens with
    | [] => exact ⟨.name ⟨"", ⟨0, 0, 0, 0⟩⟩, _, .name⟩
    | ⟨.name text, loc⟩ :: rest =>
        refine Parser.Predicts.after_head (.pure ?_) rfl fun later => rfl
        exact .name
    | ⟨.number text, loc⟩ :: rest =>
        refine Parser.Predicts.after_head (.pure ?_) rfl fun later => rfl
        exact .number
    | ⟨.string text, loc⟩ :: rest =>
        refine Parser.Predicts.after_head (.pure ?_) rfl fun later => rfl
        exact .string
    | ⟨.mark mark, loc⟩ :: rest =>
        cases mark with
        | openBracket => exact (predicts.arrayRest loc).after_head rfl fun later => rfl
        | openParen => exact (predicts.groupRest loc).after_head rfl fun later => rfl
        | _ => exact constantRule.at_head rfl fun later => rfl
    | ⟨.keyword word, loc⟩ :: rest =>
        cases word with
        | function => exact (predicts.functionRest loc).after_head rfl fun later => rfl
        | _ => exact constantRule.at_head rfl fun later => rfl

theorem callTailRule (callee : Expr) :
    predicts.Rule 0 (callTailRule · callee) (GoesOn Grade.call Grade.call callee) := by
  refine .mark?_bind ?_ ?_
  · refine (predicts.exprsUpTo .closeParen (by omega)).bind (Nat.le_refl _) fun result taken known => ?_
    obtain ⟨items, rfl, derived⟩ := known
    refine (predicts.callTail _).weaken (by omega) fun value word goesOn before calleeDerived => ?_
    have whole := goesOn _ (.call calleeDerived derived)
    simpa using whole
  refine .mark?_bind ?_ ?_
  · refine .ident_bind fun property => ?_
    refine (predicts.callTail _).weaken (by omega) fun value word goesOn before calleeDerived => ?_
    have whole := goesOn _ (.member calleeDerived)
    simpa using whole
  refine .mark?_bind ?_ ?_
  · refine predicts.expr.bind (by omega) fun key taken derived => ?_
    refine .mark_bind fun stop => ?_
    refine (predicts.callTail _).weaken (by omega) fun value word goesOn before calleeDerived => ?_
    have whole := goesOn _ (.index calleeDerived derived)
    simpa using whole
  · refine .pure fun before calleeDerived => ?_
    simpa using calleeDerived

theorem postfixRule (primary : Expr) (enough : 1 ≤ slack) :
    predicts.Rule slack (postfixRule · primary) (GoesOn Grade.call Grade.unary primary) := by
  refine (predicts.callTail primary).bind enough fun operand taken goesOn => ?_
  refine .take?_bind (fun terminal op loc known => ?_) ?_
  · refine .pure fun before derived => ?_
    rw [updateOp_eq_some.mp known, ← List.append_assoc]
    exact (Derives.updateAfter (goesOn before derived)).tighter
  · refine .pure fun before derived => ?_
    rw [List.append_nil]
    exact (goesOn before derived).tighter.tighter

theorem unaryRule : predicts.Rule 0 unaryRule (Derived (.expr Grade.unary)) := by
  refine .take?_bind (fun terminal op loc known => ?_) ?_
  · refine predicts.unary.bind (by omega) fun operand taken derived => .pure ?_
    rw [unaryOp_eq_some.mp known, List.append_nil]
    exact .unary derived
  refine .take?_bind (fun terminal op loc known => ?_) ?_
  · refine predicts.unary.bind (by omega) fun operand taken derived => .pure ?_
    rw [updateOp_eq_some.mp known, List.append_nil]
    exact .updateBefore derived
  · refine predicts.primaryRule.bind (Nat.le_refl _) fun primary taken derived => ?_
    have some : 0 < taken.length := List.length_pos_iff.mpr (derived.ne_nil (.inl ⟨_, rfl⟩))
    refine (predicts.postfixRule primary (by omega)).weaken (Nat.le_refl _) fun value word goesOn => ?_
    exact goesOn taken derived.tighter

/-! ## Operators -/

/-- The levels from an index on, where some terminals of the first operand have been taken. -/
theorem levelsRule {before : List Terminal} {first first' : Parser Expr} (enough : 1 ≤ slack)
    (firstPredicts : Parser.Predicts bound slack first first'
      fun value word => Derived (.expr Grade.unary) value (before ++ word)) {list : List Level} :
    ∀ {index : Nat}, index ≤ 6 → levels.drop index = list →
      Parser.Predicts bound slack (levelsRule shallow first list) (levelsRule deep first' list)
        fun value word => Derived (.expr (Grade.operation + index)) value (before ++ word) := by
  induction list with
  | nil =>
      intro index below here
      have last : index = 6 := Nat.le_antisymm below (List.drop_eq_nil_iff.mp here)
      subst last
      exact firstPredicts
  | cons level tighter ih =>
      intro index below here
      obtain ⟨inside, further⟩ := levels_cons here
      refine (ih inside further).bind (Nat.le_refl _) fun left taken derived => ?_
      refine (predicts.levelTail left here).weaken (by omega) fun value word goesOn => ?_
      have whole := goesOn _ derived.tighter
      rwa [List.append_assoc] at whole

theorem levelTailRule {index : Nat} {level : Level} {tighter : List Level} (left : Expr)
    (here : levels.drop index = level :: tighter) :
    predicts.Rule 0 (levelTailRule · level tighter left)
      (GoesOn (Grade.operation + index) (Grade.operation + index) left) := by
  obtain ⟨inside, further⟩ := levels_cons here
  refine .take?_bind (fun terminal op loc known => ?_) ?_
  · obtain ⟨rfl, rfl⟩ := (level_eq_some here).mp known
    have operand : Parser.Predicts bound 8 (shallow .unary) (deep .unary)
        fun value word => Derived (.expr Grade.unary) value ([] ++ word) :=
      predicts.unary.weaken (by omega) fun _ _ derived => derived
    refine (predicts.levelsRule (by omega) operand inside further).bind (Nat.le_refl _)
      fun right taken derived => ?_
    refine (predicts.levelTail _ here).weaken (by omega) fun value word goesOn before leftDerived => ?_
    have whole := goesOn _ (.operation leftDerived derived)
    simpa using whole
  · refine .pure fun before leftDerived => ?_
    simpa using leftDerived

variable {before : List Terminal} {first first' : Parser Expr}

theorem conditionalRule (enough : 1 ≤ slack)
    (firstPredicts : Parser.Predicts bound slack first first'
      fun value word => Derived (.expr Grade.unary) value (before ++ word)) :
    Parser.Predicts bound slack (conditionalRule shallow first) (conditionalRule deep first')
      fun value word => Derived (.expr Grade.conditional) value (before ++ word) := by
  refine (predicts.levelsRule enough firstPredicts (Nat.zero_le _) rfl).bind (Nat.le_refl _)
    fun test taken derived => ?_
  refine .mark?_bind ?_ ?_
  · refine predicts.assignExpr.bind (by omega) fun yes yesTaken yesDerived => ?_
    refine .mark_bind fun loc => ?_
    refine predicts.assignExpr.bind (by omega) fun no noTaken noDerived => .pure ?_
    simpa using Derives.conditional derived yesDerived noDerived
  · refine .pure ?_
    rw [List.append_nil]
    exact derived.tighter

theorem assignmentRule (enough : 1 ≤ slack)
    (firstPredicts : Parser.Predicts bound slack first first'
      fun value word => Derived (.expr Grade.unary) value (before ++ word)) :
    Parser.Predicts bound slack (assignmentRule shallow first) (assignmentRule deep first')
      fun value word => Derived (.expr Grade.assignment) value (before ++ word) := by
  refine (predicts.conditionalRule enough firstPredicts).bind (Nat.le_refl _)
    fun target taken derived => ?_
  refine .take?_bind (fun terminal op loc known => ?_) ?_
  · rw [assignOp_eq_some.mp known]
    refine predicts.assignExpr.bind (by omega) fun value others valueDerived => ?_
    refine .pure ?_
    simpa using Derives.assign derived valueDerived nofun
  · refine .pure ?_
    rw [List.append_nil]
    exact derived.tighter

theorem arrowRule (before : List Terminal) (start : Loc) (head : ArrowHead) (slack : Nat)
    (headDerives : ∀ loc body word, Derived .arrowBody body word →
      Derived (.expr Grade.assignment) (.arrow loc head body) (before ++ .mark .arrow :: word)) :
    predicts.Rule slack (arrowRule · start head)
      fun value word => Derived (.expr Grade.assignment) value (before ++ word) := by
  refine .mark_bind fun loc => ?_
  refine .atMark_bind fun found => ?_
  cases found with
  | true =>
      simp only [↓reduceIte, map_eq_pure_bind, bind_assoc, pure_bind]
      refine predicts.block.bind (by omega) fun body taken derived => .pure ?_
      rw [List.append_nil]
      exact headDerives _ _ _ (.arrowBlock derived)
  | false =>
      simp only [Bool.false_eq_true, ↓reduceIte, map_eq_pure_bind, bind_assoc, pure_bind]
      refine predicts.assignExpr.bind (by omega) fun value taken derived => .pure ?_
      rw [List.append_nil]
      exact headDerives _ _ _ (.arrowValue derived)

end Grammar.Predicts

/-! ## Tokens whose way depends on the next one -/

/-- Terminals after which the rules look at the next token to choose a way. -/
def forks : Terminal → Bool
  | .name _ => true
  | .keyword .function => true
  | _ => false

/-- A grammar that takes such a token where it stands alone. -/
structure Grammar.Calm (grammar : Grammar) : Prop where
  self : ∃ bound, Grammar.Predicts bound grammar grammar
  unary : ∀ token : Token, forks token.terminal = true → Result.Spent ((grammar .unary).run [token])
  assignExpr : ∀ token : Token, forks token.terminal = true →
    Result.Spent ((grammar .assignExpr).run [token])
  expr : ∀ token : Token, forks token.terminal = true → Result.Spent ((grammar .expr).run [token])

namespace Grammar.Calm

open Parser.Predicts (spent_bind)

variable {grammar : Grammar} (calm : grammar.Calm)

include calm

theorem levelsRule {first : Parser Expr} {tokens : List Token}
    (spent : Result.Spent (first.run tokens)) {list : List Level} :
    ∀ {index : Nat}, levels.drop index = list →
      Result.Spent ((Concrete.levelsRule grammar first list).run tokens) := by
  obtain ⟨bound, self⟩ := calm.self
  induction list with
  | nil =>
      intro index here
      exact spent
  | cons level tighter ih =>
      intro index here
      exact spent_bind (ih (levels_cons here).2) fun left => (self.levelTail left here).spent_nil

theorem assignmentRule {first : Parser Expr} {tokens : List Token}
    (spent : Result.Spent (first.run tokens)) :
    Result.Spent ((Concrete.assignmentRule grammar first).run tokens) := by
  have operand := calm.levelsRule spent (show levels.drop 0 = levels from rfl)
  exact spent_bind (spent_bind operand fun test => rfl) fun target => rfl

theorem postfixRule (primary : Expr) :
    Result.Spent ((Concrete.postfixRule grammar primary).run []) := by
  obtain ⟨bound, self⟩ := calm.self
  exact spent_bind (self.callTail primary).spent_nil fun operand => rfl

theorem unaryRule (token : Token) (open_ : forks token.terminal = true) :
    Result.Spent ((Concrete.unaryRule grammar).run [token]) := by
  obtain ⟨terminal, loc⟩ := token
  cases terminal with
  | name text => exact calm.postfixRule _
  | keyword word =>
      cases word with
      | function => trivial
      | _ => cases open_
  | _ => cases open_

theorem assignExprRule (token : Token) (open_ : forks token.terminal = true) :
    Result.Spent ((Concrete.assignExprRule grammar).run [token]) := by
  have spent := calm.assignmentRule (calm.unary token open_)
  obtain ⟨terminal, loc⟩ := token
  cases terminal with
  | name text => exact spent
  | keyword word => exact spent
  | _ => cases open_

theorem exprRule (token : Token) (open_ : forks token.terminal = true) :
    Result.Spent ((Concrete.exprRule grammar).run [token]) := by
  obtain ⟨bound, self⟩ := calm.self
  exact spent_bind (calm.assignExpr token open_) fun left => (self.exprTail left).spent_nil

theorem exprStatement (token : Token) (open_ : forks token.terminal = true) :
    Result.Spent ((Concrete.exprStatement grammar).run [token]) := by
  refine spent_bind (spent_bind (calm.expr token open_) fun value => ?_) fun result => rfl
  trivial

end Grammar.Calm

/-! ## Expressions without commas -/

namespace Grammar.Predicts

variable {bound slack : Nat} {shallow deep : Grammar}
  (predicts : Grammar.Predicts bound shallow deep)

include predicts

theorem parenRest (start : Loc) (slack : Nat) :
    predicts.Rule (slack + 8) (Concrete.parenRest · start)
    fun value word => Derived (.expr Grade.assignment) value (.mark .openParen :: word) := by
  refine predicts.expr.bind (by omega) fun inner taken derived => ?_
  refine .mark_bind fun stop => ?_
  refine .atMark_bind fun found => ?_
  cases found with
  | true =>
      refine (predicts.arrowRule (.mark .openParen :: (taken ++ [.mark .closeParen])) _ _ _
        fun loc body word bodyDerived => ?_).weaken (Nat.le_refl _) fun value word whole => ?_
      · simpa using Derives.arrowGroup derived bodyDerived
      · simpa using whole
  | false =>
      let group := Expr.group (start.upTo stop) inner
      have first :
          predicts.Rule (slack + 8 + 8 * taken.length + 8) (Concrete.postfixRule · group) fun value word =>
            Derived (.expr Grade.unary) value
              (.mark .openParen :: (taken ++ [.mark .closeParen]) ++ word) :=
        (predicts.postfixRule group (by omega)).weaken (Nat.le_refl _)
          fun value word goesOn => goesOn _ (Derives.group derived).tighter
      refine (predicts.assignmentRule (by omega) first).weaken (Nat.le_refl _)
        fun value word whole => ?_
      simpa using whole

theorem assignExprRule (calm : deep.Calm) :
    predicts.Rule 1 assignExprRule (Derived (.expr Grade.assignment)) where
  nonempty := ⟨.name ⟨"", ⟨0, 0, 0, 0⟩⟩, _, Derives.name.loosen (by decide)⟩
  predicts tokens := by
    have plain : Parser.Predicts bound 1 (Concrete.assignmentRule shallow (shallow .unary))
        (Concrete.assignmentRule deep (deep .unary)) (Derived (.expr Grade.assignment)) :=
      predicts.assignmentRule (Nat.le_refl _)
        (show Parser.Predicts bound 1 (shallow .unary) (deep .unary)
          fun value word => Derived (.expr Grade.unary) value ([] ++ word) from predicts.unary)
    match tokens with
    | [] => exact (plain.predicts []).of_spent plain.spent_nil
    | [⟨.name text, loc⟩] =>
        have here := plain.predicts [⟨.name text, loc⟩]
        exact here.of_spent (here.spent_of_lone (calm.assignmentRule (calm.unary _ rfl)))
    | ⟨.name text, loc⟩ :: ⟨second, place⟩ :: rest =>
        by_cases arrow : second = .mark .arrow
        · subst arrow
          have after := predicts.arrowRule [.name text] loc (.name ⟨text, loc⟩) (1 + 8)
            fun _ _ _ derived => .arrowName derived
          refine Result.Predicts.append [⟨.name text, loc⟩] (fun token rest split later => ?_)
            (after.predicts (⟨.mark .arrow, place⟩ :: rest))
          cases split
          rfl
        · have other : ∀ (grammar : Grammar) later,
              (Concrete.assignExprRule grammar).run (⟨.name text, loc⟩ :: ⟨second, place⟩ :: later) =
                (Concrete.assignmentRule grammar (grammar .unary)).run
                  (⟨.name text, loc⟩ :: ⟨second, place⟩ :: later) := by
            intro grammar later
            cases second with
            | mark mark =>
                cases mark with
                | arrow => exact absurd rfl arrow
                | _ => rfl
            | _ => rfl
          rw [other shallow]
          exact (plain.predicts _).of_two (calm.assignmentRule (calm.unary _ rfl)) (other deep)
    | ⟨.mark mark, loc⟩ :: rest =>
        cases mark with
        | openParen =>
            have after := predicts.parenRest loc 1
            match rest with
            | [] =>
                exact Result.Predicts.append [⟨.mark .openParen, loc⟩]
                  (fun _ _ split => nomatch split) (after.predicts [])
            | ⟨second, place⟩ :: rest =>
                by_cases closed : second = .mark .closeParen
                · subst closed
                  have empty := predicts.arrowRule [.mark .openParen, .mark .closeParen] loc .empty
                    (1 + 16) fun _ _ _ derived => .arrowEmpty derived
                  exact Result.Predicts.append [⟨.mark .openParen, loc⟩, ⟨.mark .closeParen, place⟩]
                    (fun _ _ _ _ => rfl) (empty.predicts rest)
                · have other : ∀ (grammar : Grammar) later, (Concrete.assignExprRule grammar).run
                        (⟨.mark .openParen, loc⟩ :: ⟨second, place⟩ :: later) =
                      (Concrete.parenRest grammar loc).run (⟨second, place⟩ :: later) := by
                    intro grammar later
                    cases second with
                    | mark mark =>
                        cases mark with
                        | closeParen => exact absurd rfl closed
                        | _ => rfl
                    | _ => rfl
                  rw [other shallow]
                  refine Result.Predicts.append [⟨.mark .openParen, loc⟩]
                    (fun token rest split later => ?_) (after.predicts (⟨second, place⟩ :: rest))
                  cases split
                  exact other deep later
        | _ => exact plain.at_head rfl fun later => rfl
    | ⟨.number text, loc⟩ :: rest => exact plain.at_head rfl fun later => rfl
    | ⟨.string text, loc⟩ :: rest => exact plain.at_head rfl fun later => rfl
    | ⟨.keyword word, loc⟩ :: rest => exact plain.at_head rfl fun later => rfl

end Grammar.Predicts

end LoopCapture.Concrete
