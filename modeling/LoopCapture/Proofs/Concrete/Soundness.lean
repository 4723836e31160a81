import LoopCapture.Proofs.Concrete.Spelling
import LoopCapture.Proofs.Concrete.Strata

/-!
# The parser reads what stands there

Every tree that the parser yields is well formed and spells the tokens that were taken. A tail goes
on with a tree that has been read already, so its result spells the tokens from the start of that
tree on.
-/

set_option autoImplicit false

namespace LoopCapture.Concrete

open Parser.Yields
variable {terminal : Terminal}

/-! ## Operators -/

theorem assignOp_eq_some {op : AssignOp} :
    assignOp terminal = some op ↔ terminal = .mark (assignMark op) := by
  constructor
  · unfold assignOp
    split <;> rintro ⟨⟩ <;> rfl
  · rintro rfl
    cases op with
    | plain => rfl
    | combined op => cases op <;> rfl

theorem unaryOp_eq_some {op : UnaryOp} :
    unaryOp terminal = some op ↔ terminal = unaryTerminal op := by
  constructor
  · unfold unaryOp
    split <;> rintro ⟨⟩ <;> rfl
  · rintro rfl
    cases op <;> rfl

theorem updateOp_eq_some {op : UpdateOp} :
    updateOp terminal = some op ↔ terminal = .mark (updateMark op) := by
  constructor
  · unfold updateOp
    split <;> rintro ⟨⟩ <;> rfl
  · rintro rfl
    cases op <;> rfl

theorem declKind_eq_some {kind : DeclKind} :
    declKind terminal = some kind ↔ terminal = .keyword (declKeyword kind) := by
  constructor
  · unfold declKind
    split <;> rintro ⟨⟩ <;> rfl
  · rintro rfl
    cases kind <;> rfl

theorem eachKind_eq_some {kind : EachKind} :
    eachKind terminal = some kind ↔ terminal = .keyword (eachKeyword kind) := by
  constructor
  · unfold eachKind
    split <;> rintro ⟨⟩ <;> rfl
  · rintro rfl
    cases kind <;> rfl

theorem constant_eq_some {value : Constant} :
    constant terminal = some value ↔ terminal = .keyword value.keyword := by
  constructor
  · unfold constant
    split <;> rintro ⟨⟩ <;> rfl
  · rintro rfl
    cases value <;> rfl

theorem level_mark (op : InfixOp) :
    (levels.drop op.level).head?.bind (· (.mark op.mark)) = some op := by
  fun_cases InfixOp.mark op <;> rfl

theorem levels_cons {index : Nat} {level : Level} {tighter : List Level}
    (here : levels.drop index = level :: tighter) :
    index < 6 ∧ levels.drop (index + 1) = tighter := by
  refine ⟨Nat.lt_of_not_le fun outside => ?_, by rw [← List.tail_drop, here, List.tail_cons]⟩
  have none : levels.drop index = [] := List.drop_eq_nil_iff.mpr outside
  simp [none] at here

theorem level_eq_some {index : Nat} {level : Level} {tighter : List Level}
    (here : levels.drop index = level :: tighter) {op : InfixOp} :
    level terminal = some op ↔ terminal = .mark op.mark ∧ op.level = index := by
  constructor
  · intro known
    match index with
    | 0 => cases here; revert known; unfold orLevel; split <;> rintro ⟨⟩; exact ⟨rfl, rfl⟩
    | 1 => cases here; revert known; unfold andLevel; split <;> rintro ⟨⟩; exact ⟨rfl, rfl⟩
    | 2 => cases here; revert known; unfold equalLevel; split <;> rintro ⟨⟩ <;> exact ⟨rfl, rfl⟩
    | 3 => cases here; revert known; unfold orderLevel; split <;> rintro ⟨⟩ <;> exact ⟨rfl, rfl⟩
    | 4 => cases here; revert known; unfold sumLevel; split <;> rintro ⟨⟩ <;> exact ⟨rfl, rfl⟩
    | 5 => cases here; revert known; unfold productLevel; split <;> rintro ⟨⟩ <;> exact ⟨rfl, rfl⟩
    | index + 6 => simp [levels] at here
  · rintro ⟨rfl, rfl⟩
    simpa [here] using level_mark op

/-! ## Results -/

/-- An expression of at least the given grade has been read. -/
structure Expr.Read (value : Expr) (grade : Nat) (tokens rest : List Token) : Prop where
  spells : value.Spells tokens rest
  wellFormed : value.WellFormed
  grade_le : grade ≤ value.grade

/-- No assignment follows an expression, unless nothing can go on with it. -/
def Expr.Unassigned (value : Expr) (rest : List Token) : Prop :=
  value.endsInBlock = false → (next rest).bind assignOp = none

/-- A statement has been read. An `else` that it could have taken does not follow. -/
structure Stmt.Read (stmt : Stmt) (tokens rest : List Token) : Prop where
  spells : stmt.Spells tokens rest
  wellFormed : stmt.WellFormed
  no_else : stmt.takesElse = true → next rest ≠ some (.keyword .else)

/-- What the goals of a grammar yield. -/
structure Grammar.Sound (grammar : Grammar) : Prop where
  expr : ∀ {value tokens rest}, (grammar .expr).Yields tokens value rest →
    value.Read 0 tokens rest
  exprTail : ∀ {left value start tokens rest},
    (grammar (.exprTail left)).Yields tokens value rest → left.Read 0 start tokens →
    value.Read 0 start rest
  assignExpr : ∀ {value tokens rest}, (grammar .assignExpr).Yields tokens value rest →
    value.Read Grade.assignment tokens rest ∧ value.Unassigned rest
  exprList : ∀ {items tokens rest}, (grammar .exprList).Yields tokens items rest →
    exprsSpell items tokens rest ∧ exprsWellFormed items ∧ items ≠ []
  levelTail : ∀ {index level tighter left value start tokens rest},
    levels.drop index = level :: tighter →
    (grammar (.levelTail level tighter left)).Yields tokens value rest →
    left.Read (Grade.operation + index) start tokens →
    value.Read (Grade.operation + index) start rest
  unary : ∀ {value tokens rest}, (grammar .unary).Yields tokens value rest →
    value.Read Grade.unary tokens rest
  callTail : ∀ {callee value start tokens rest},
    (grammar (.callTail callee)).Yields tokens value rest → callee.Read Grade.call start tokens →
    value.Read Grade.call start rest
  names : ∀ {names tokens rest}, (grammar .names).Yields tokens names rest →
    namesSpell names tokens rest ∧ names ≠ []
  declarators : ∀ {items tokens rest}, (grammar .declarators).Yields tokens items rest →
    declaratorsSpell items tokens rest ∧ declaratorsWellFormed items ∧ items ≠ []
  block : ∀ {body tokens rest}, (grammar .block).Yields tokens body rest →
    body.Spells tokens rest ∧ body.WellFormed
  statement : ∀ {stmt tokens rest}, (grammar .statement).Yields tokens stmt rest →
    stmt.Read tokens rest
  statements : ∀ {until_ body tokens rest}, (grammar (.statements until_)).Yields tokens body rest →
    stmtsSpell body tokens rest ∧ stmtsWellFormed body ∧ until_.stops (next rest) = true
  cases : ∀ {items tokens rest}, (grammar .cases).Yields tokens items rest →
    casesSpell items tokens rest ∧ casesWellFormed items

theorem Expr.Read.weaken {value : Expr} {grade lower : Nat} {tokens rest : List Token}
    (read : value.Read grade tokens rest) (below : lower ≤ grade) :
    value.Read lower tokens rest :=
  ⟨read.spells, read.wellFormed, Nat.le_trans below read.grade_le⟩

namespace Grammar.Sound

variable {grammar : Grammar} (sound : grammar.Sound)
variable {start rest tokens : List Token} {stmt : Stmt} {value : Expr} {loc : Loc}
include sound

/-! ## Expressions -/

theorem exprRule (run : (Concrete.exprRule grammar).Yields tokens value rest) :
    value.Read 0 tokens rest := by
  obtain ⟨first, between, firstRun, tail⟩ := bind_iff.mp run
  exact sound.exprTail tail ((sound.assignExpr firstRun).1.weaken (Nat.zero_le _))

theorem exprTailRule {left : Expr}
    (run : (Concrete.exprTailRule grammar left).Yields tokens value rest)
    (read : left.Read 0 start tokens) : value.Read 0 start rest := by
  obtain ⟨comma, between, rfl, more⟩ | ⟨-, done⟩ := mark?_bind.mp run
  · obtain ⟨right, after, rightRun, tail⟩ := bind_iff.mp more
    have item := (sound.assignExpr rightRun).1
    refine sound.exprTail tail ⟨⟨comma, between, read.spells, item.spells, rfl⟩, ?_, Nat.zero_le _⟩
    exact ⟨read.wellFormed, item.wellFormed, item.grade_le⟩
  · obtain ⟨rfl, rfl⟩ := pure_iff.mp done
    exact read

theorem exprListRule {items : List Expr}
    (run : (Concrete.exprListRule grammar).Yields tokens items rest) :
    exprsSpell items tokens rest ∧ exprsWellFormed items ∧ items ≠ [] := by
  obtain ⟨first, between, firstRun, more⟩ := bind_iff.mp run
  have item := (sound.assignExpr firstRun).1
  obtain ⟨comma, after, rfl, tail⟩ | ⟨-, done⟩ := mark?_bind.mp more
  · obtain ⟨others, othersRun, rfl⟩ := bind_pure_iff.mp tail
    obtain ⟨spelled, formed, nonempty⟩ := sound.exprList othersRun
    refine ⟨?_, ⟨item.wellFormed, item.grade_le, formed⟩, by simp⟩
    simp only [exprsSpell, List.isEmpty_iff, nonempty, if_false]
    exact ⟨comma, after, item.spells, spelled⟩
  · obtain ⟨rfl, rfl⟩ := pure_iff.mp done
    exact ⟨item.spells, ⟨item.wellFormed, item.grade_le, trivial⟩, by simp⟩

theorem exprsUpTo {close : Mark} {items : List Expr}
    (run : (Concrete.exprsUpTo grammar close).Yields tokens (items, loc) rest) :
    exprsSpell items tokens (⟨.mark close, loc⟩ :: rest) ∧ exprsWellFormed items := by
  have step := atMark_bind.mp run
  split at step
  · obtain ⟨stop, after, rfl, done⟩ := mark_bind.mp step
    obtain ⟨same, rfl⟩ := pure_iff.mp done
    cases same
    exact ⟨rfl, trivial⟩
  · obtain ⟨found, between, itemsRun, more⟩ := bind_iff.mp step
    obtain ⟨stop, after, rfl, done⟩ := mark_bind.mp more
    obtain ⟨same, rfl⟩ := pure_iff.mp done
    cases same
    obtain ⟨spelled, formed, -⟩ := sound.exprList itemsRun
    exact ⟨spelled, formed⟩

theorem paramsRule {names : List Ident}
    (run : (Concrete.paramsRule grammar).Yields tokens names rest) :
    ∃ opened closed inner, tokens = ⟨.mark .openParen, opened⟩ :: inner ∧
      namesSpell names inner (⟨.mark .closeParen, closed⟩ :: rest) := by
  obtain ⟨opened, inner, rfl, more⟩ := mark_bind.mp run
  have step := atMark_bind.mp more
  dsimp only at step
  split at step
  · obtain ⟨found, between, none, step⟩ := bind_iff.mp step
    obtain ⟨closed, after, rfl, done⟩ := mark_bind.mp step
    obtain ⟨rfl, same⟩ := pure_iff.mp none
    obtain ⟨rfl, rfl⟩ := pure_iff.mp done
    exact ⟨opened, closed, inner, rfl, same.symm⟩
  · obtain ⟨found, between, namesRun, step⟩ := bind_iff.mp step
    obtain ⟨closed, rfl, rfl⟩ := mark_pure_iff.mp step
    exact ⟨opened, closed, inner, rfl, (sound.names namesRun).1⟩

theorem primaryRule (run : (Concrete.primaryRule grammar).Yields tokens value rest) :
    value.Read Grade.primary tokens rest := by
  have step := get_bind.mp run
  split at step
  · rw [set_bind, pure_iff] at step
    obtain ⟨rfl, rfl⟩ := step
    exact ⟨rfl, trivial, Nat.le_refl _⟩
  · rw [set_bind, pure_iff] at step
    obtain ⟨rfl, rfl⟩ := step
    exact ⟨rfl, trivial, Nat.le_refl _⟩
  · rw [set_bind, pure_iff] at step
    obtain ⟨rfl, rfl⟩ := step
    exact ⟨rfl, trivial, Nat.le_refl _⟩
  · obtain ⟨⟨items, stop⟩, itemsRun, rfl⟩ := bind_pure_iff.mp (set_bind.mp step)
    obtain ⟨spelled, formed⟩ := sound.exprsUpTo itemsRun
    exact ⟨⟨_, stop, _, rfl, spelled, rfl⟩, formed, Nat.le_refl _⟩
  · obtain ⟨inner, between, innerRun, closing⟩ := bind_iff.mp (set_bind.mp step)
    obtain ⟨stop, rfl, rfl⟩ := mark_pure_iff.mp closing
    have read := sound.expr innerRun
    exact ⟨⟨_, stop, _, rfl, read.spells, rfl⟩, read.wellFormed, Nat.le_refl _⟩
  · obtain ⟨names, between, namesRun, step⟩ := bind_iff.mp (set_bind.mp step)
    obtain ⟨body, bodyRun, rfl⟩ := bind_pure_iff.mp step
    obtain ⟨opened, closed, inner, rfl, named⟩ := sound.paramsRule namesRun
    obtain ⟨spelled, formed⟩ := sound.block bodyRun
    exact ⟨⟨_, opened, closed, inner, _, rfl, named, spelled, rfl⟩, formed, Nat.le_refl _⟩
  · obtain ⟨⟨found, loc⟩, after, taken, done⟩ := bind_iff.mp step
    obtain ⟨terminal, rfl, known⟩ := take_iff.mp taken
    obtain ⟨rfl, rfl⟩ := pure_iff.mp done
    obtain rfl := constant_eq_some.mp known
    exact ⟨rfl, trivial, Nat.le_refl _⟩

theorem callTailRule {callee : Expr}
    (run : (Concrete.callTailRule grammar callee).Yields tokens value rest)
    (read : callee.Read Grade.call start tokens) : value.Read Grade.call start rest := by
  obtain ⟨opened, between, rfl, call⟩ | ⟨-, other⟩ := mark?_bind.mp run
  · obtain ⟨⟨args, stop⟩, after, argsRun, tail⟩ := bind_iff.mp call
    obtain ⟨spelled, formed⟩ := sound.exprsUpTo argsRun
    refine sound.callTail tail ⟨⟨opened, stop, between, read.spells, spelled, rfl⟩, ?_, Nat.le_refl _⟩
    exact ⟨read.wellFormed, read.grade_le, formed⟩
  obtain ⟨dot, between, rfl, member⟩ | ⟨-, other⟩ := mark?_bind.mp other
  · obtain ⟨property, after, rfl, tail⟩ := ident_bind.mp member
    refine sound.callTail tail ⟨⟨dot, _, read.spells, rfl, rfl⟩, ?_, Nat.le_refl _⟩
    exact ⟨read.wellFormed, read.grade_le⟩
  obtain ⟨opened, between, rfl, index⟩ | ⟨-, done⟩ := mark?_bind.mp other
  · obtain ⟨key, after, keyRun, closing⟩ := bind_iff.mp index
    obtain ⟨stop, last, rfl, tail⟩ := mark_bind.mp closing
    have inner := sound.expr keyRun
    refine sound.callTail tail
      ⟨⟨opened, stop, between, read.spells, inner.spells, rfl⟩, ?_, Nat.le_refl _⟩
    exact ⟨read.wellFormed, read.grade_le, inner.wellFormed⟩
  · obtain ⟨rfl, rfl⟩ := pure_iff.mp done
    exact read

theorem postfixRule {primary : Expr}
    (run : (Concrete.postfixRule grammar primary).Yields tokens value rest)
    (read : primary.Read Grade.primary start tokens) : value.Read Grade.unary start rest := by
  obtain ⟨operand, between, operandRun, step⟩ := bind_iff.mp run
  have inner := sound.callTail operandRun (read.weaken (by decide))
  obtain ⟨terminal, stop, op, after, rfl, known, done⟩ | ⟨-, done⟩ := take?_bind.mp step
  · obtain ⟨rfl, rfl⟩ := pure_iff.mp done
    obtain rfl := updateOp_eq_some.mp known
    exact ⟨⟨stop, inner.spells, rfl⟩, ⟨inner.wellFormed, inner.grade_le⟩, Nat.le_succ _⟩
  · obtain ⟨rfl, rfl⟩ := pure_iff.mp done
    exact inner.weaken (by decide)

theorem unaryRule (run : (Concrete.unaryRule grammar).Yields tokens value rest) :
    value.Read Grade.unary tokens rest := by
  obtain ⟨terminal, sign, op, between, rfl, known, step⟩ | ⟨-, step⟩ := take?_bind.mp run
  · obtain ⟨operand, operandRun, rfl⟩ := bind_pure_iff.mp step
    obtain rfl := unaryOp_eq_some.mp known
    have inner := sound.unary operandRun
    exact ⟨⟨sign, between, rfl, inner.spells, rfl⟩, ⟨inner.wellFormed, inner.grade_le⟩, Nat.le_refl _⟩
  obtain ⟨terminal, sign, op, between, rfl, known, step⟩ | ⟨-, step⟩ := take?_bind.mp step
  · obtain ⟨operand, operandRun, rfl⟩ := bind_pure_iff.mp step
    obtain rfl := updateOp_eq_some.mp known
    have inner := sound.unary operandRun
    exact ⟨⟨sign, between, rfl, inner.spells, rfl⟩, ⟨inner.wellFormed, inner.grade_le⟩, Nat.le_refl _⟩
  · obtain ⟨primary, between, primaryRun, step⟩ := bind_iff.mp step
    exact sound.postfixRule step (sound.primaryRule primaryRun)

/-- The levels from an index on, whose first operand starts where the whole expression does. -/
theorem levelsRule {first : Parser Expr}
    (firstSound : ∀ {value rest}, first.Yields tokens value rest → value.Read Grade.unary start rest)
    {list : List Level} : ∀ {index : Nat} {value : Expr} {rest : List Token},
      index ≤ 6 → levels.drop index = list →
      (Concrete.levelsRule grammar first list).Yields tokens value rest →
      value.Read (Grade.operation + index) start rest := by
  induction list with
  | nil =>
      intro index value rest below here run
      have last : 6 ≤ index := List.drop_eq_nil_iff.mp here
      exact (firstSound run).weaken (by unfold Grade.operation Grade.unary; omega)
  | cons level tighter ih =>
      intro index value rest below here run
      obtain ⟨left, between, leftRun, tail⟩ := bind_iff.mp run
      obtain ⟨inside, further⟩ := levels_cons here
      have read := ih inside further leftRun
      exact sound.levelTail here tail (read.weaken (Nat.le_succ _))

theorem levelTailRule {index : Nat} {level : Level} {tighter : List Level} {left : Expr}
    (here : levels.drop index = level :: tighter)
    (run : (Concrete.levelTailRule grammar level tighter left).Yields tokens value rest)
    (read : left.Read (Grade.operation + index) start tokens) :
    value.Read (Grade.operation + index) start rest := by
  obtain ⟨terminal, sign, op, between, rfl, known, step⟩ | ⟨-, done⟩ := take?_bind.mp run
  · obtain ⟨right, after, rightRun, tail⟩ := bind_iff.mp step
    obtain ⟨rfl, rfl⟩ := (level_eq_some here).mp known
    obtain ⟨inside, further⟩ := levels_cons here
    have operand := sound.levelsRule sound.unary inside further rightRun
    refine sound.levelTail here tail
      ⟨⟨sign, between, read.spells, operand.spells, rfl⟩, ?_, Nat.le_refl _⟩
    exact ⟨read.wellFormed, read.grade_le, operand.wellFormed, operand.grade_le⟩
  · obtain ⟨rfl, rfl⟩ := pure_iff.mp done
    exact read

/-- A conditional expression is a left side if an assignment follows. -/
theorem conditionalRule {first : Parser Expr}
    (firstSound : ∀ {value rest}, first.Yields tokens value rest → value.Read Grade.unary start rest)
    (run : (Concrete.conditionalRule grammar first).Yields tokens value rest) :
    value.Read Grade.conditional start rest ∧
      (value.isLeftSide = false → (next rest).bind assignOp = none) := by
  obtain ⟨test, between, testRun, step⟩ := bind_iff.mp run
  have read : test.Read (Grade.operation + 0) start between :=
    sound.levelsRule firstSound (Nat.zero_le _) rfl testRun
  obtain ⟨question, after, rfl, branches⟩ | ⟨-, done⟩ := mark?_bind.mp step
  · obtain ⟨yes, between, yesRun, alternate⟩ := bind_iff.mp branches
    obtain ⟨colon, after, rfl, noStep⟩ := mark_bind.mp alternate
    obtain ⟨no, noRun, rfl⟩ := bind_pure_iff.mp noStep
    have yesRead := (sound.assignExpr yesRun).1
    obtain ⟨noRead, unassigned⟩ := sound.assignExpr noRun
    refine ⟨⟨?_, ?_, Nat.le_refl _⟩, fun other => ?_⟩
    · exact ⟨question, colon, _, after, read.spells, yesRead.spells, noRead.spells, rfl⟩
    · exact ⟨read.wellFormed, read.grade_le, yesRead.wellFormed, yesRead.grade_le,
        noRead.wellFormed, noRead.grade_le⟩
    · exact unassigned other
  · obtain ⟨rfl, rfl⟩ := pure_iff.mp done
    refine ⟨read.weaken (by decide), fun other => ?_⟩
    rw [Expr.isLeftSide_of_grade read.grade_le] at other
    cases other

theorem assignmentRule {first : Parser Expr}
    (firstSound : ∀ {value rest}, first.Yields tokens value rest → value.Read Grade.unary start rest)
    (run : (Concrete.assignmentRule grammar first).Yields tokens value rest) :
    value.Read Grade.assignment start rest ∧ value.Unassigned rest := by
  obtain ⟨target, between, targetRun, step⟩ := bind_iff.mp run
  obtain ⟨read, left⟩ := sound.conditionalRule firstSound targetRun
  obtain ⟨terminal, sign, op, after, rfl, known, step⟩ | ⟨absent, done⟩ := take?_bind.mp step
  · obtain ⟨assigned, assignedRun, rfl⟩ := bind_pure_iff.mp step
    obtain ⟨assignedRead, unassigned⟩ := sound.assignExpr assignedRun
    have leftSide : target.isLeftSide = true := by
      cases side : target.isLeftSide with
      | true => rfl
      | false => simpa [known] using left side
    obtain rfl := assignOp_eq_some.mp known
    refine ⟨⟨⟨sign, after, read.spells, assignedRead.spells, rfl⟩, ?_, Nat.le_refl _⟩, unassigned⟩
    exact ⟨read.wellFormed, leftSide, assignedRead.wellFormed, assignedRead.grade_le⟩
  · obtain ⟨rfl, rfl⟩ := pure_iff.mp done
    exact ⟨read.weaken (by decide), fun _ => absent⟩

theorem arrowRule {head : ArrowHead} {place : Loc}
    (run : (Concrete.arrowRule grammar place head).Yields tokens value rest)
    (spelled : head.Spells place start tokens) (formed : head.WellFormed) :
    value.Read Grade.assignment start rest ∧ value.Unassigned rest := by
  obtain ⟨arrow, between, rfl, step⟩ := mark_bind.mp run
  have step := atMark_bind.mp step
  dsimp only at step
  split at step
  · obtain ⟨body, after, bodyRun, done⟩ := bind_iff.mp step
    obtain ⟨block, blockRun, rfl⟩ := map_iff.mp bodyRun
    obtain ⟨rfl, rfl⟩ := pure_iff.mp done
    obtain ⟨blockSpelled, blockFormed⟩ := sound.block blockRun
    exact ⟨⟨⟨place, arrow, between, spelled, blockSpelled, rfl⟩, ⟨formed, blockFormed⟩,
      Nat.le_refl _⟩, nofun⟩
  · obtain ⟨body, after, bodyRun, done⟩ := bind_iff.mp step
    obtain ⟨inner, innerRun, rfl⟩ := map_iff.mp bodyRun
    obtain ⟨rfl, rfl⟩ := pure_iff.mp done
    obtain ⟨read, unassigned⟩ := sound.assignExpr innerRun
    exact ⟨⟨⟨place, arrow, between, spelled, read.spells, rfl⟩,
      ⟨formed, read.wellFormed, read.grade_le⟩, Nat.le_refl _⟩, unassigned⟩

theorem assignExprRule (run : (Concrete.assignExprRule grammar).Yields tokens value rest) :
    value.Read Grade.assignment tokens rest ∧ value.Unassigned rest := by
  have step := get_bind.mp run
  split at step
  · exact sound.arrowRule (set_bind.mp step) ⟨rfl, rfl⟩ trivial
  · exact sound.arrowRule (set_bind.mp step) ⟨_, rfl⟩ trivial
  · obtain ⟨inner, between, innerRun, closing⟩ := bind_iff.mp (set_bind.mp step)
    obtain ⟨stop, after, rfl, further⟩ := mark_bind.mp closing
    replace further := atMark_bind.mp further
    have read := sound.expr innerRun
    split at further
    · exact sound.arrowRule further ⟨stop, _, rfl, read.spells⟩ read.wellFormed
    · refine sound.assignmentRule (fun operandRun => ?_) further
      exact sound.postfixRule operandRun
        ⟨⟨_, stop, _, rfl, read.spells, rfl⟩, read.wellFormed, Nat.le_refl _⟩
  · exact sound.assignmentRule sound.unary step

/-! ## Declarations -/

theorem namesRule {names : List Ident}
    (run : (Concrete.namesRule grammar).Yields tokens names rest) :
    namesSpell names tokens rest ∧ names ≠ [] := by
  obtain ⟨first, between, rfl, step⟩ := ident_bind.mp run
  obtain ⟨comma, after, rfl, more⟩ | ⟨-, done⟩ := mark?_bind.mp step
  · obtain ⟨others, othersRun, rfl⟩ := bind_pure_iff.mp more
    obtain ⟨spelled, nonempty⟩ := sound.names othersRun
    refine ⟨?_, by simp⟩
    simp only [namesSpell, List.isEmpty_iff, nonempty, if_false]
    exact ⟨comma, after, rfl, spelled⟩
  · obtain ⟨rfl, rfl⟩ := pure_iff.mp done
    exact ⟨rfl, by simp⟩

theorem declaratorRest {x : Ident} {item : Declarator}
    (run : (Concrete.declaratorRest grammar x).Yields tokens item rest) :
    ∃ loc init, item = .mk loc x init ∧ initSpells x loc init tokens rest ∧ initWellFormed init := by
  obtain ⟨sign, between, rfl, more⟩ | ⟨-, done⟩ := mark?_bind.mp run
  · obtain ⟨value, valueRun, rfl⟩ := bind_pure_iff.mp more
    have read := (sound.assignExpr valueRun).1
    exact ⟨_, some value, rfl, ⟨sign, between, rfl, read.spells, rfl⟩, read.wellFormed, read.grade_le⟩
  · obtain ⟨rfl, rfl⟩ := pure_iff.mp done
    exact ⟨_, none, rfl, ⟨rfl, rfl⟩, trivial⟩

theorem declaratorsFrom {x : Ident} {init : Option Expr} {items : List Declarator}
    (run : (Concrete.declaratorsFrom grammar (.mk loc x init)).Yields tokens items rest)
    (spelled : initSpells x loc init start tokens) (formed : initWellFormed init) :
    declaratorsSpell items (⟨.name x.name, x.loc⟩ :: start) rest ∧ declaratorsWellFormed items ∧
      items ≠ [] := by
  obtain ⟨comma, between, rfl, more⟩ | ⟨-, done⟩ := mark?_bind.mp run
  · obtain ⟨others, othersRun, rfl⟩ := bind_pure_iff.mp more
    obtain ⟨othersSpelled, othersFormed, nonempty⟩ := sound.declarators othersRun
    refine ⟨⟨start, rfl, ?_⟩, ⟨formed, othersFormed⟩, by simp⟩
    simp only [List.isEmpty_iff, nonempty, if_false]
    exact ⟨comma, between, spelled, othersSpelled⟩
  · obtain ⟨rfl, rfl⟩ := pure_iff.mp done
    exact ⟨⟨start, rfl, spelled⟩, ⟨formed, trivial⟩, by simp⟩

theorem declaratorsRule {items : List Declarator}
    (run : (Concrete.declaratorsRule grammar).Yields tokens items rest) :
    declaratorsSpell items tokens rest ∧ declaratorsWellFormed items ∧ items ≠ [] := by
  obtain ⟨x, between, rfl, step⟩ := ident_bind.mp run
  obtain ⟨first, after, firstRun, step⟩ := bind_iff.mp step
  obtain ⟨loc, init, rfl, spelled, formed⟩ := sound.declaratorRest firstRun
  exact sound.declaratorsFrom step spelled formed

/-! ## Parts of statements -/

theorem exprSemicolon (run : (Concrete.exprSemicolon grammar).Yields tokens (value, loc) rest) :
    value.Read 0 tokens (⟨.mark .semicolon, loc⟩ :: rest) := by
  obtain ⟨found, between, foundRun, closing⟩ := bind_iff.mp run
  obtain ⟨stop, after, rfl, done⟩ := mark_bind.mp closing
  obtain ⟨same, rfl⟩ := pure_iff.mp done
  cases same
  exact sound.expr foundRun

theorem parenthesized (run : (Concrete.parenthesized grammar).Yields tokens value rest) :
    ∃ opened closed inner, tokens = ⟨.mark .openParen, opened⟩ :: inner ∧
      value.Read 0 inner (⟨.mark .closeParen, closed⟩ :: rest) := by
  obtain ⟨opened, inner, rfl, step⟩ := mark_bind.mp run
  obtain ⟨found, between, foundRun, closing⟩ := bind_iff.mp step
  obtain ⟨closed, rfl, rfl⟩ := mark_pure_iff.mp closing
  exact ⟨opened, closed, inner, rfl, sound.expr foundRun⟩

theorem exprUnless {close : Mark} {value : Option Expr}
    (run : (Concrete.exprUnless grammar close).Yields tokens value rest) :
    exprOptionSpells value tokens rest ∧ exprOptionWellFormed value := by
  have step := atMark_bind.mp run
  split at step
  · obtain ⟨rfl, rfl⟩ := pure_iff.mp step
    exact ⟨rfl, trivial⟩
  · obtain ⟨found, foundRun, rfl⟩ := bind_pure_iff.mp step
    have read := sound.expr foundRun
    exact ⟨read.spells, read.wellFormed⟩

theorem blockRule {body : Block} (run : (Concrete.blockRule grammar).Yields tokens body rest) :
    body.Spells tokens rest ∧ body.WellFormed := by
  obtain ⟨first, inner, rfl, step⟩ := mark_bind.mp run
  obtain ⟨found, between, foundRun, closing⟩ := bind_iff.mp step
  obtain ⟨last, rfl, rfl⟩ := mark_pure_iff.mp closing
  obtain ⟨spelled, formed, -⟩ := sound.statements foundRun
  exact ⟨⟨first, last, inner, rfl, spelled, rfl⟩, formed⟩

theorem statementsRule {until_ : ListEnd} {body : List Stmt}
    (run : (Concrete.statementsRule grammar until_).Yields tokens body rest) :
    stmtsSpell body tokens rest ∧ stmtsWellFormed body ∧ until_.stops (next rest) = true := by
  have step := peek?_bind.mp run
  split at step
  · rename_i stops
    obtain ⟨rfl, rfl⟩ := pure_iff.mp step
    exact ⟨rfl, trivial, stops⟩
  · obtain ⟨first, between, firstRun, step⟩ := bind_iff.mp step
    obtain ⟨others, othersRun, rfl⟩ := bind_pure_iff.mp step
    have read := sound.statement firstRun
    obtain ⟨spelled, formed, stops⟩ := sound.statements othersRun
    exact ⟨⟨between, read.spells, spelled⟩, ⟨read.wellFormed, formed⟩, stops⟩

/-! ## Statements -/

theorem functionRule {start : Loc}
    (run : (Concrete.functionRule grammar start).Yields tokens stmt rest) :
    stmt.Read (⟨.keyword .function, start⟩ :: tokens) rest := by
  obtain ⟨name, between, rfl, step⟩ := ident_bind.mp run
  obtain ⟨names, after, namesRun, step⟩ := bind_iff.mp step
  obtain ⟨body, bodyRun, rfl⟩ := bind_pure_iff.mp step
  obtain ⟨opened, closed, inner, rfl, named⟩ := sound.paramsRule namesRun
  obtain ⟨spelled, formed⟩ := sound.block bodyRun
  exact ⟨⟨start, opened, closed, inner, after, rfl, named, spelled, rfl⟩, formed, nofun⟩

theorem ifRule {start : Loc} (run : (Concrete.ifRule grammar start).Yields tokens stmt rest) :
    stmt.Read (⟨.keyword .if, start⟩ :: tokens) rest := by
  obtain ⟨test, after, testRun, step⟩ := bind_iff.mp run
  obtain ⟨opened, closed, inner, rfl, testRead⟩ := sound.parenthesized testRun
  obtain ⟨yes, between, yesRun, step⟩ := bind_iff.mp step
  have yesRead := sound.statement yesRun
  obtain ⟨word, last, rfl, branch⟩ | ⟨absent, done⟩ := keyword?_bind.mp step
  · obtain ⟨no, noRun, rfl⟩ := bind_pure_iff.mp branch
    have noRead := sound.statement noRun
    have closedYes : yes.takesElse = false := by
      cases open_ : yes.takesElse with
      | false => rfl
      | true => exact absurd rfl (yesRead.no_else open_)
    refine ⟨?_, ?_, noRead.no_else⟩
    · exact ⟨start, opened, closed, inner, after, _, rfl, testRead.spells, yesRead.spells,
        ⟨word, last, rfl, noRead.spells⟩, rfl⟩
    · exact ⟨testRead.wellFormed, yesRead.wellFormed, noRead.wellFormed, fun _ => closedYes⟩
  · obtain ⟨rfl, rfl⟩ := pure_iff.mp done
    refine ⟨?_, ?_, fun _ => absent⟩
    · exact ⟨start, opened, closed, inner, after, _, rfl, testRead.spells, yesRead.spells, rfl, rfl⟩
    · exact ⟨testRead.wellFormed, yesRead.wellFormed, trivial, nofun⟩

theorem forLoopRule {first opened : Loc} {init : Option ForInit}
    (run : (Concrete.forLoopRule grammar first init).Yields tokens stmt rest)
    (spelled : forInitSpells init start tokens) (formed : forInitWellFormed init) :
    stmt.Read (⟨.keyword .for, first⟩ :: ⟨.mark .openParen, opened⟩ :: start) rest := by
  obtain ⟨one, middle, rfl, step⟩ := mark_bind.mp run
  obtain ⟨test, between, testRun, step⟩ := bind_iff.mp step
  obtain ⟨testSpelled, testFormed⟩ := sound.exprUnless testRun
  obtain ⟨two, last, rfl, afterTest⟩ := mark_bind.mp step
  obtain ⟨update, between, updateRun, afterUpdate⟩ := bind_iff.mp afterTest
  obtain ⟨updateSpelled, updateFormed⟩ := sound.exprUnless updateRun
  obtain ⟨closed, after, rfl, bodyStep⟩ := mark_bind.mp afterUpdate
  obtain ⟨body, bodyRun, rfl⟩ := bind_pure_iff.mp bodyStep
  have read := sound.statement bodyRun
  refine ⟨?_, ⟨formed, testFormed, updateFormed, read.wellFormed⟩, read.no_else⟩
  exact ⟨first, opened, one, two, closed, start, middle, last, after, rfl, spelled, testSpelled,
    updateSpelled, read.spells, rfl⟩

theorem forEachRule {first opened word : Loc} {kind : EachKind} {target : ForTarget}
    (run : (Concrete.forEachRule grammar first kind target).Yields tokens stmt rest)
    (spelled : targetSpells target start (⟨.keyword (eachKeyword kind), word⟩ :: tokens)) :
    stmt.Read (⟨.keyword .for, first⟩ :: ⟨.mark .openParen, opened⟩ :: start) rest := by
  obtain ⟨subject, between, read, graded, step⟩ :
      ∃ subject between, subject.Read 0 tokens between ∧
        (kind = .values → Grade.assignment ≤ subject.grade) ∧
        (do
          let _ ← Parser.mark .closeParen
          let body ← grammar .statement
          return Stmt.forEach (first.upTo body.loc) kind target subject body : Parser Stmt).Yields
            between stmt rest := by
    cases kind with
    | keys =>
        obtain ⟨subject, between, subjectRun, step⟩ := bind_iff.mp run
        exact ⟨subject, between, sound.expr subjectRun, nofun, step⟩
    | values =>
        obtain ⟨subject, between, subjectRun, step⟩ := bind_iff.mp run
        have read := (sound.assignExpr subjectRun).1
        exact ⟨subject, between, read.weaken (Nat.zero_le _), fun _ => read.grade_le, step⟩
  obtain ⟨closed, after, rfl, bodyStep⟩ := mark_bind.mp step
  obtain ⟨body, bodyRun, rfl⟩ := bind_pure_iff.mp bodyStep
  have bodyRead := sound.statement bodyRun
  refine ⟨?_, ⟨read.wellFormed, graded, bodyRead.wellFormed⟩, bodyRead.no_else⟩
  exact ⟨first, opened, word, closed, start, tokens, after, rfl, spelled, read.spells,
    bodyRead.spells, rfl⟩

theorem forRule {first : Loc} (run : (Concrete.forRule grammar first).Yields tokens stmt rest) :
    stmt.Read (⟨.keyword .for, first⟩ :: tokens) rest := by
  obtain ⟨opened, start, rfl, header⟩ := mark_bind.mp run
  obtain ⟨terminal, place, kind, between, rfl, known, declared⟩ | ⟨-, other⟩ := take?_bind.mp header
  · obtain rfl := declKind_eq_some.mp known
    obtain ⟨x, after, rfl, named⟩ := ident_bind.mp declared
    obtain ⟨terminal, word, each, last, rfl, eachKnown, loop⟩ | ⟨-, step⟩ := take?_bind.mp named
    · obtain rfl := eachKind_eq_some.mp eachKnown
      exact sound.forEachRule loop ⟨place, rfl, rfl⟩
    · obtain ⟨item, last, itemRun, step⟩ := bind_iff.mp step
      obtain ⟨loc, init, rfl, spelled, formed⟩ := sound.declaratorRest itemRun
      obtain ⟨items, final, itemsRun, step⟩ := bind_iff.mp step
      obtain ⟨itemsSpelled, itemsFormed, nonempty⟩ := sound.declaratorsFrom itemsRun spelled formed
      exact sound.forLoopRule step ⟨place, _, rfl, itemsSpelled, rfl⟩ ⟨nonempty, itemsFormed⟩
  have fromExpr {value : Expr} {between : List Token}
      (valueRun : (grammar .expr).Yields start value between)
      (step : (Concrete.forLoopRule grammar first (some (.expr value))).Yields between stmt rest) :
      stmt.Read (⟨.keyword .for, first⟩ :: ⟨.mark .openParen, opened⟩ :: start) rest := by
    have read := sound.expr valueRun
    exact sound.forLoopRule step read.spells read.wellFormed
  have step := get_bind.mp other
  split at step
  · rename_i text loc second afterSecond
    split at step
    · rename_i each known
      obtain ⟨terminal, word⟩ := second
      obtain rfl := eachKind_eq_some.mp known
      exact sound.forEachRule (set_bind.mp step) rfl
    · obtain ⟨value, between, valueRun, step⟩ := bind_iff.mp (set_bind.mp step)
      exact fromExpr valueRun step
  · have step := atMark_bind.mp step
    split at step
    · exact sound.forLoopRule step rfl trivial
    · obtain ⟨value, between, valueRun, step⟩ := bind_iff.mp step
      exact fromExpr valueRun step

theorem whileRule {start : Loc} (run : (Concrete.whileRule grammar start).Yields tokens stmt rest) :
    stmt.Read (⟨.keyword .while, start⟩ :: tokens) rest := by
  obtain ⟨test, after, testRun, step⟩ := bind_iff.mp run
  obtain ⟨body, bodyRun, rfl⟩ := bind_pure_iff.mp step
  obtain ⟨opened, closed, inner, rfl, testRead⟩ := sound.parenthesized testRun
  have read := sound.statement bodyRun
  refine ⟨?_, ⟨testRead.wellFormed, read.wellFormed⟩, read.no_else⟩
  exact ⟨start, opened, closed, inner, after, rfl, testRead.spells, read.spells, rfl⟩

theorem doWhileRule {start : Loc}
    (run : (Concrete.doWhileRule grammar start).Yields tokens stmt rest) :
    stmt.Read (⟨.keyword .do, start⟩ :: tokens) rest := by
  obtain ⟨body, between, bodyRun, step⟩ := bind_iff.mp run
  obtain ⟨word, after, rfl, header⟩ := keyword_bind.mp step
  obtain ⟨test, last, testRun, closing⟩ := bind_iff.mp header
  obtain ⟨opened, closed, inner, rfl, testRead⟩ := sound.parenthesized testRun
  obtain ⟨stop, rfl, rfl⟩ := mark_pure_iff.mp closing
  have read := sound.statement bodyRun
  refine ⟨?_, ⟨read.wellFormed, testRead.wellFormed⟩, nofun⟩
  exact ⟨start, word, opened, closed, stop, tokens, inner, rfl, read.spells, testRead.spells, rfl⟩

omit sound in
theorem jumpRest {label : Option Ident} (run : Concrete.jumpRest.Yields tokens (label, loc) rest) :
    labelSpells label tokens (⟨.mark .semicolon, loc⟩ :: rest) := by
  obtain ⟨x, between, rfl, closing⟩ | ⟨-, closing⟩ := ident?_bind.mp run
  · obtain ⟨stop, after, rfl, done⟩ := mark_bind.mp closing
    obtain ⟨same, rfl⟩ := pure_iff.mp done
    cases same
    rfl
  · obtain ⟨stop, after, rfl, done⟩ := mark_bind.mp closing
    obtain ⟨same, rfl⟩ := pure_iff.mp done
    cases same
    rfl

theorem catchRule {clause : CatchClause} {start : Loc}
    (run : (Concrete.catchRule grammar start).Yields tokens clause rest) :
    handlerSpells (some clause) (⟨.keyword .catch, start⟩ :: tokens) rest ∧
      handlerWellFormed (some clause) := by
  obtain ⟨opened, inner, rfl, step⟩ := mark_bind.mp run
  obtain ⟨param, between, rfl, closing⟩ := ident_bind.mp step
  obtain ⟨closed, after, rfl, bodyStep⟩ := mark_bind.mp closing
  obtain ⟨body, bodyRun, rfl⟩ := bind_pure_iff.mp bodyStep
  obtain ⟨spelled, formed⟩ := sound.block bodyRun
  exact ⟨⟨start, opened, closed, after, rfl, spelled, rfl⟩, formed⟩

theorem tryRule {start : Loc} (run : (Concrete.tryRule grammar start).Yields tokens stmt rest) :
    stmt.Read (⟨.keyword .try, start⟩ :: tokens) rest := by
  obtain ⟨body, between, bodyRun, step⟩ := bind_iff.mp run
  obtain ⟨spelled, formed⟩ := sound.block bodyRun
  obtain ⟨terminal, place, _, after, rfl, known, handled⟩ | ⟨-, unhandled⟩ := take?_bind.mp step
  · obtain rfl := only_eq_some.mp known
    obtain ⟨clause, last, clauseRun, finish⟩ := bind_iff.mp handled
    obtain ⟨clauseSpelled, clauseFormed⟩ := sound.catchRule clauseRun
    obtain ⟨word, final, rfl, finalStep⟩ | ⟨-, done⟩ := keyword?_bind.mp finish
    · obtain ⟨finalizer, finalizerRun, rfl⟩ := bind_pure_iff.mp finalStep
      obtain ⟨finalSpelled, finalFormed⟩ := sound.block finalizerRun
      refine ⟨?_, ⟨formed, clauseFormed, finalFormed, .inl rfl⟩, nofun⟩
      exact ⟨start, tokens, _, _, rfl, spelled, clauseSpelled, ⟨word, _, rfl, finalSpelled⟩, rfl⟩
    · obtain ⟨rfl, rfl⟩ := pure_iff.mp done
      refine ⟨?_, ⟨formed, clauseFormed, trivial, .inl rfl⟩, nofun⟩
      exact ⟨start, tokens, _, _, rfl, spelled, clauseSpelled, rfl, rfl⟩
  · obtain ⟨word, after, rfl, finish⟩ := keyword_bind.mp unhandled
    obtain ⟨finalizer, finalizerRun, rfl⟩ := bind_pure_iff.mp finish
    obtain ⟨finalSpelled, finalFormed⟩ := sound.block finalizerRun
    refine ⟨?_, ⟨formed, trivial, finalFormed, .inr rfl⟩, nofun⟩
    exact ⟨start, tokens, _, _, rfl, spelled, rfl, ⟨word, after, rfl, finalSpelled⟩, rfl⟩

theorem caseBody {body : List Stmt}
    (run : (Concrete.caseBody grammar).Yields tokens (body, loc) rest) :
    ∃ colon inner, tokens = ⟨.mark .colon, colon⟩ :: inner ∧ stmtsSpell body inner rest ∧
      stmtsWellFormed body ∧ loc = (body.getLast?.map Stmt.loc).getD colon := by
  obtain ⟨colon, inner, rfl, step⟩ := mark_bind.mp run
  obtain ⟨found, after, foundRun, done⟩ := bind_iff.mp step
  obtain ⟨same, rfl⟩ := pure_iff.mp done
  cases same
  obtain ⟨spelled, formed, -⟩ := sound.statements foundRun
  exact ⟨colon, inner, rfl, spelled, formed, rfl⟩

theorem casesRule {items : List Case}
    (run : (Concrete.casesRule grammar).Yields tokens items rest) :
    casesSpell items tokens rest ∧ casesWellFormed items := by
  obtain ⟨terminal, first, _, between, rfl, known, step⟩ | ⟨-, step⟩ := take?_bind.mp run
  · obtain rfl := only_eq_some.mp known
    obtain ⟨test, after, testRun, step⟩ := bind_iff.mp step
    obtain ⟨⟨body, stop⟩, last, bodyRun, step⟩ := bind_iff.mp step
    obtain ⟨others, othersRun, rfl⟩ := bind_pure_iff.mp step
    have testRead := sound.expr testRun
    obtain ⟨colon, inner, rfl, spelled, formed, rfl⟩ := sound.caseBody bodyRun
    obtain ⟨othersSpelled, othersFormed⟩ := sound.cases othersRun
    exact ⟨⟨first, colon, inner, last, ⟨between, rfl, testRead.spells⟩, spelled, othersSpelled, rfl⟩,
      testRead.wellFormed, formed, othersFormed⟩
  obtain ⟨terminal, first, _, between, rfl, known, body⟩ | ⟨-, done⟩ := take?_bind.mp step
  · obtain rfl := only_eq_some.mp known
    obtain ⟨⟨body, stop⟩, last, bodyRun, step⟩ := bind_iff.mp body
    obtain ⟨others, othersRun, rfl⟩ := bind_pure_iff.mp step
    obtain ⟨colon, inner, rfl, spelled, formed, rfl⟩ := sound.caseBody bodyRun
    obtain ⟨othersSpelled, othersFormed⟩ := sound.cases othersRun
    exact ⟨⟨first, colon, inner, last, rfl, spelled, othersSpelled, rfl⟩, trivial, formed,
      othersFormed⟩
  · obtain ⟨rfl, rfl⟩ := pure_iff.mp done
    exact ⟨rfl, trivial⟩

theorem switchRule {start : Loc}
    (run : (Concrete.switchRule grammar start).Yields tokens stmt rest) :
    stmt.Read (⟨.keyword .switch, start⟩ :: tokens) rest := by
  obtain ⟨subject, after, subjectRun, step⟩ := bind_iff.mp run
  obtain ⟨opened, closed, inner, rfl, subjectRead⟩ := sound.parenthesized subjectRun
  obtain ⟨brace, body, rfl, casesStep⟩ := mark_bind.mp step
  obtain ⟨items, last, itemsRun, closing⟩ := bind_iff.mp casesStep
  obtain ⟨stop, rfl, rfl⟩ := mark_pure_iff.mp closing
  obtain ⟨spelled, formed⟩ := sound.cases itemsRun
  refine ⟨?_, ⟨subjectRead.wellFormed, formed⟩, nofun⟩
  exact ⟨start, opened, closed, brace, stop, inner, body, rfl, subjectRead.spells, spelled, rfl⟩

theorem exprStatement (run : (Concrete.exprStatement grammar).Yields tokens stmt rest) :
    stmt.Read tokens rest := by
  obtain ⟨⟨value, stop⟩, valueRun, rfl⟩ := bind_pure_iff.mp run
  have read := sound.exprSemicolon valueRun
  exact ⟨⟨stop, read.spells, rfl⟩, read.wellFormed, nofun⟩

theorem keywordStatement {word : Keyword} {start : Loc}
    (run : (Concrete.keywordStatement grammar word start).Yields
      (⟨.keyword word, start⟩ :: tokens) stmt rest) :
    stmt.Read (⟨.keyword word, start⟩ :: tokens) rest := by
  unfold Concrete.keywordStatement at run
  dsimp only at run
  split at run
  · replace run := peekSecond?_bind.mp run
    split at run
    · exact sound.functionRule (modify_bind.mp run)
    · exact sound.exprStatement run
  · exact sound.ifRule (modify_bind.mp run)
  · exact sound.forRule (modify_bind.mp run)
  · exact sound.whileRule (modify_bind.mp run)
  · exact sound.doWhileRule (modify_bind.mp run)
  · obtain ⟨value, between, valueRun, closing⟩ := bind_iff.mp (modify_bind.mp run)
    obtain ⟨stop, rfl, rfl⟩ := mark_pure_iff.mp closing
    obtain ⟨spelled, formed⟩ := sound.exprUnless valueRun
    exact ⟨⟨start, stop, tokens, rfl, spelled, rfl⟩, formed, nofun⟩
  · obtain ⟨⟨label, stop⟩, jump, rfl⟩ := bind_pure_iff.mp (modify_bind.mp run)
    exact ⟨⟨start, stop, tokens, rfl, jumpRest jump, rfl⟩, trivial, nofun⟩
  · obtain ⟨⟨label, stop⟩, jump, rfl⟩ := bind_pure_iff.mp (modify_bind.mp run)
    exact ⟨⟨start, stop, tokens, rfl, jumpRest jump, rfl⟩, trivial, nofun⟩
  · obtain ⟨⟨value, stop⟩, valueRun, rfl⟩ := bind_pure_iff.mp (modify_bind.mp run)
    have read := sound.exprSemicolon valueRun
    exact ⟨⟨start, stop, tokens, rfl, read.spells, rfl⟩, read.wellFormed, nofun⟩
  · exact sound.tryRule (modify_bind.mp run)
  · exact sound.switchRule (modify_bind.mp run)
  · split at run
    · rename_i kind known
      obtain ⟨items, between, itemsRun, closing⟩ := bind_iff.mp (modify_bind.mp run)
      obtain ⟨stop, rfl, rfl⟩ := mark_pure_iff.mp closing
      obtain ⟨spelled, formed, nonempty⟩ := sound.declarators itemsRun
      have same := declKind_eq_some.mp known
      refine ⟨⟨stop, ⟨start, tokens, ?_, spelled, rfl⟩, rfl⟩, ⟨nonempty, formed⟩, nofun⟩
      rw [same]
      rfl
    · exact sound.exprStatement run

theorem statementRule (run : (Concrete.statementRule grammar).Yields tokens stmt rest) :
    stmt.Read tokens rest := by
  replace run := get_bind.mp run
  split at run
  · exact sound.keywordStatement run
  · obtain ⟨body, bodyRun, rfl⟩ := bind_pure_iff.mp run
    obtain ⟨spelled, formed⟩ := sound.block bodyRun
    exact ⟨spelled, formed, nofun⟩
  · rw [set_bind, pure_iff] at run
    obtain ⟨rfl, rfl⟩ := run
    exact ⟨rfl, trivial, nofun⟩
  · obtain ⟨body, bodyRun, rfl⟩ := bind_pure_iff.mp (set_bind.mp run)
    have read := sound.statement bodyRun
    exact ⟨⟨_, _, rfl, read.spells, rfl⟩, read.wellFormed, read.no_else⟩
  · exact sound.exprStatement run

theorem rule : (Concrete.rule grammar).Sound where
  expr := sound.exprRule
  exprTail := sound.exprTailRule
  assignExpr := sound.assignExprRule
  exprList := sound.exprListRule
  levelTail := sound.levelTailRule
  unary := sound.unaryRule
  callTail := sound.callTailRule
  names := sound.namesRule
  declarators := sound.declaratorsRule
  block := sound.blockRule
  statement := sound.statementRule
  statements := sound.statementsRule
  cases := sound.casesRule

end Grammar.Sound

/-- Whatever the bound on the depth of calls, the goals yield trees that spell what was taken. -/
theorem parseGoal_sound (depth : Nat) : (Grammar.Sound (parseGoal depth)) := by
  induction depth with
  | zero => constructor <;> intros <;> exact absurd ‹_› not_throw
  | succ depth ih => exact ih.rule

/-- The statements of a program spell all its tokens. -/
theorem parse_sound {tokens : List Token} {body : List Stmt} (parsed : parse tokens = .ok body) :
    stmtsSpell body tokens [] ∧ stmtsWellFormed body := by
  unfold parse at parsed
  cases run : (parseGoal (depthFor tokens.length) (.statements .program)).run tokens with
  | error rejection => simp [run, bind, Except.bind] at parsed
  | ok result =>
      obtain ⟨found, rest⟩ := result
      obtain ⟨spelled, formed, stops⟩ := (parseGoal_sound _).statements run
      have same : found = body := by simpa [run, bind, Except.bind, pure, Except.pure] using parsed
      have finished : rest = [] := by simpa [ListEnd.stops, next] using stops
      rw [← same]
      rw [finished] at spelled
      exact ⟨spelled, formed⟩

end LoopCapture.Concrete
