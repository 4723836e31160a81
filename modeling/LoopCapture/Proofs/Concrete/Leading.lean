import LoopCapture.Proofs.Concrete.Soundness
import LoopCapture.Proofs.Concrete.SpelledTerminals

/-!
# How expressions begin, go on and end

A terminal after an expression either ends it or goes on with it, and the grade of what it makes
says which parts of the expression it can belong to. Where an operator groups to the left, an
expression is a tighter one that has been extended again and again; that is how it is read.
-/

set_option autoImplicit false

namespace LoopCapture.Concrete

variable {following : Option Terminal} {rest tokens : List Token} {grade : Nat} {value : Expr}

/-! ## Terminals that go on with an expression -/

/-- The grade of the expression that a terminal makes of an expression before it. -/
def joinGrade? : Terminal → Option Nat
  | .mark .comma => some 0
  | .mark .assign => some Grade.assignment
  | .mark .addAssign => some Grade.assignment
  | .mark .subAssign => some Grade.assignment
  | .mark .mulAssign => some Grade.assignment
  | .mark .divAssign => some Grade.assignment
  | .mark .remAssign => some Grade.assignment
  | .mark .question => some Grade.conditional
  | .mark .or => some 3
  | .mark .and => some 4
  | .mark .strictEqual => some 5
  | .mark .strictUnequal => some 5
  | .mark .looseEqual => some 5
  | .mark .looseUnequal => some 5
  | .mark .less => some 6
  | .mark .lessEqual => some 6
  | .mark .greater => some 6
  | .mark .greaterEqual => some 6
  | .mark .plus => some 7
  | .mark .minus => some 7
  | .mark .times => some 8
  | .mark .over => some 8
  | .mark .percent => some 8
  | .mark .increment => some 10
  | .mark .decrement => some 10
  | .mark .openParen => some Grade.call
  | .mark .dot => some Grade.call
  | .mark .openBracket => some Grade.call
  | .mark .arrow => some Grade.primary
  | _ => none

/-- Whether an expression of a grade ends before the next terminal. -/
def stops (grade : Nat) (following : Option Terminal) : Bool :=
  (following.bind joinGrade?).all (· < grade)

theorem joinGrade?_assign (op : AssignOp) :
    joinGrade? (.mark (assignMark op)) = some Grade.assignment := by
  cases op with
  | plain => rfl
  | combined op => cases op <;> rfl

theorem joinGrade?_infixOp (op : InfixOp) :
    joinGrade? (.mark op.mark) = some (Grade.operation + op.level) := by
  fun_cases InfixOp.mark op <;> rfl

theorem InfixOp.level_lt (op : InfixOp) : op.level < 6 := by
  fun_cases InfixOp.level op <;> decide

theorem joinGrade?_update (op : UpdateOp) : joinGrade? (.mark (updateMark op)) = some 10 := by
  cases op <;> rfl

theorem stops_mono {higher : Nat} (below : grade ≤ higher)
    (stopped : stops grade following = true) : stops higher following = true := by
  cases known : following.bind joinGrade? with
  | none => simp [stops, known]
  | some join =>
      simp only [stops, known, Option.all_some, decide_eq_true_eq] at stopped ⊢
      omega

/-- A terminal with a value does not come next if it would go on with the expression. -/
theorem absent_of_stops {α : Type} {value : Terminal → Option α}
    (stopped : stops grade following = true) (joins : ∀ terminal a, value terminal = some a →
      ∃ join, joinGrade? terminal = some join ∧ grade ≤ join) :
    following.bind value = none := by
  cases following with
  | none => rfl
  | some terminal =>
      cases known : value terminal with
      | none => exact known
      | some a =>
          obtain ⟨join, same, above⟩ := joins terminal a known
          simp only [stops, Option.bind_some, same, Option.all_some, decide_eq_true_eq] at stopped
          omega

theorem mark_ne_of_stops {join : Nat} {mark : Mark} (stopped : stops grade following = true)
    (joins : joinGrade? (.mark mark) = some join) (above : grade ≤ join) :
    following ≠ some (.mark mark) := by
  rintro rfl
  simp only [stops, Option.bind_some, joins, Option.all_some, decide_eq_true_eq] at stopped
  omega

theorem assignOp_absent (stopped : stops Grade.assignment following = true) :
    following.bind assignOp = none := by
  refine absent_of_stops stopped fun terminal op known => ?_
  obtain rfl := assignOp_eq_some.mp known
  exact ⟨_, joinGrade?_assign op, Nat.le_refl _⟩

theorem updateOp_absent (stopped : stops 10 following = true) :
    following.bind updateOp = none := by
  refine absent_of_stops stopped fun terminal op known => ?_
  obtain rfl := updateOp_eq_some.mp known
  exact ⟨_, joinGrade?_update op, Nat.le_refl _⟩

theorem level_absent {index : Nat} {level : Level} {tighter : List Level}
    (here : levels.drop index = level :: tighter)
    (stopped : stops (Grade.operation + index) following = true) :
    following.bind level = none := by
  refine absent_of_stops stopped fun terminal op known => ?_
  obtain ⟨rfl, rfl⟩ := (level_eq_some here).mp known
  exact ⟨_, joinGrade?_infixOp op, Nat.le_refl _⟩

/-! ## First tokens -/

/-- Terminals that start an expression of one kind only. -/
def startsOther : Terminal → Bool
  | .number _ => true
  | .string _ => true
  | .mark .openBracket => true
  | .mark .bang => true
  | .mark .minus => true
  | .mark .plus => true
  | .mark .increment => true
  | .mark .decrement => true
  | .keyword .typeof => true
  | .keyword .true => true
  | .keyword .false => true
  | .keyword .null => true
  | .keyword .this => true
  | _ => false

/-- Terminals that an expression can start with. -/
def startsExpr : Terminal → Bool
  | .name _ => true
  | .mark .openParen => true
  | .keyword .function => true
  | terminal => startsOther terminal

/-- The leftmost part of an expression that does not start with another expression. -/
def Expr.leftmost : Expr → Expr
  | .sequence _ left _ => left.leftmost
  | .assign _ _ target _ => target.leftmost
  | .conditional _ test _ _ => test.leftmost
  | .operation _ _ left _ => left.leftmost
  | .update _ _ false operand => operand.leftmost
  | .call _ callee _ => callee.leftmost
  | .member _ object _ => object.leftmost
  | .index _ object _ => object.leftmost
  | value => value

/-- Whether an expression does not start with another expression. -/
def Expr.isLeaf : Expr → Bool
  | .sequence .. => false
  | .assign .. => false
  | .conditional .. => false
  | .operation .. => false
  | .update _ _ false _ => false
  | .call .. => false
  | .member .. => false
  | .index .. => false
  | _ => true

theorem Expr.isLeaf_leftmost (value : Expr) : value.leftmost.isLeaf = true := by
  fun_induction Expr.leftmost value with
  | case9 value => unfold Expr.isLeaf; grind
  | _ => assumption

/-- Only expressions that assign, and arrow functions, start with an arrow function. -/
theorem Expr.leftmost_grade (formed : value.WellFormed) (tight : Grade.conditional ≤ value.grade) :
    Grade.unary ≤ value.leftmost.grade := by
  fun_induction Expr.leftmost value with
  | case1 => exact absurd tight (Nat.not_succ_le_zero _)
  | case2 => exact absurd tight (Nat.lt_irrefl 1)
  | case3 _ _ _ _ ih =>
      exact ih formed.1 (Nat.le_trans (by decide) formed.2.1)
  | case4 _ op _ _ ih =>
      exact ih formed.1
        (Nat.le_trans (Nat.le_trans (by decide) (Nat.le_add_right _ _)) formed.2.1)
  | case5 _ _ _ ih =>
      exact ih formed.1 (Nat.le_trans (by decide) formed.2)
  | case6 _ _ _ ih =>
      exact ih formed.1 (Nat.le_trans (by decide) formed.2.1)
  | case7 _ _ _ ih =>
      exact ih formed.1 (Nat.le_trans (by decide) formed.2)
  | case8 _ _ _ ih =>
      exact ih formed.1 (Nat.le_trans (by decide) formed.2.1)
  | case9 value =>
      unfold Expr.grade at tight ⊢
      grind

theorem Expr.isLeaf_of_primary (tight : Grade.primary ≤ value.grade) :
    value.isLeaf = true := by
  cases value with
  | operation _ op _ _ =>
      have below := op.level_lt
      simp only [Expr.grade, Grade.primary, Grade.operation] at tight
      omega
  | update _ _ before _ => cases before <;> exact absurd tight (by simp [Expr.grade, Grade.primary])
  | sequence | assign | conditional | call | member | index =>
      exact absurd tight (by simp [Expr.grade, Grade.primary])
  | _ => rfl

theorem Expr.endsInBlock_of_grade (tight : Grade.conditional ≤ value.grade) :
    value.endsInBlock = false := by
  cases value with
  | arrow _ _ _ => exact absurd tight (Nat.lt_irrefl 1)
  | assign _ _ _ _ => exact absurd tight (Nat.lt_irrefl 1)
  | _ => rfl

/-- An expression without commas that neither assigns nor is an arrow function. -/
theorem Expr.grade_of_plain (loose : Grade.assignment ≤ value.grade)
    (notArrow : ∀ {loc head body}, value ≠ .arrow loc head body)
    (notAssign : ∀ {loc op target assigned}, value ≠ .assign loc op target assigned) :
    Grade.conditional ≤ value.grade := by
  refine Nat.succ_le_of_lt (Nat.lt_of_le_of_ne loose fun same => ?_)
  unfold Expr.grade at same
  grind

theorem Expr.grade_of_leftSide {target : Expr} (left : target.isLeftSide = true) :
    Grade.conditional ≤ target.grade := by
  unfold Expr.isLeftSide at left
  split at left
  · exact Nat.le_refl _
  · exact Nat.le_trans (by decide) (of_decide_eq_true left)

/-- The leftmost part of an expression spells the tokens up to a place where either the whole
expression ends or a terminal goes on with it. -/
structure Expr.Leads (value : Expr) (tokens between rest : List Token) : Prop where
  spells : value.leftmost.Spells tokens between
  wellFormed : value.leftmost.WellFormed
  follow : value.leftmost = value ∧ between = rest ∨
    ∃ join, (next between).bind joinGrade? = some join ∧ join < Grade.primary

/-- The first part of an expression leads it too. -/
theorem Expr.Leads.onward {left : Expr} {between after : List Token} {terminal : Terminal}
    {loc : Loc} {join : Nat} (leads : left.Leads tokens between (⟨terminal, loc⟩ :: after))
    (same : value.leftmost = left.leftmost) (joins : joinGrade? terminal = some join)
    (tight : join < Grade.primary) : value.Leads tokens between rest := by
  refine ⟨same ▸ leads.spells, same ▸ leads.wellFormed, .inr ?_⟩
  rcases leads.follow with ⟨-, rfl⟩ | known
  · exact ⟨join, joins, tight⟩
  · exact known

theorem Expr.leads : ∀ {value : Expr} {tokens rest : List Token}, value.Spells tokens rest →
    value.WellFormed → ∃ between, value.Leads tokens between rest
  | .sequence _ left _, tokens, rest, spelled, formed => by
      obtain ⟨comma, after, leftSpelled, -⟩ := spelled
      obtain ⟨between, leads⟩ := Expr.leads leftSpelled formed.1
      exact ⟨between, leads.onward rfl rfl (by decide)⟩
  | .assign _ op target _, tokens, rest, spelled, formed => by
      obtain ⟨sign, after, targetSpelled, -⟩ := spelled
      obtain ⟨between, leads⟩ := Expr.leads targetSpelled formed.1
      exact ⟨between, leads.onward rfl (joinGrade?_assign op) (by decide)⟩
  | .conditional _ test _ _, tokens, rest, spelled, formed => by
      obtain ⟨question, colon, middle, after, testSpelled, -⟩ := spelled
      obtain ⟨between, leads⟩ := Expr.leads testSpelled formed.1
      exact ⟨between, leads.onward rfl rfl (by decide)⟩
  | .operation _ op left _, tokens, rest, spelled, formed => by
      obtain ⟨sign, after, leftSpelled, -⟩ := spelled
      obtain ⟨between, leads⟩ := Expr.leads leftSpelled formed.1
      have tight : Grade.operation + op.level < Grade.operation + 6 :=
        Nat.add_lt_add_left op.level_lt _
      exact ⟨between, leads.onward rfl (joinGrade?_infixOp op) (Nat.lt_trans tight (by decide))⟩
  | .update _ op false operand, tokens, rest, spelled, formed => by
      obtain ⟨sign, operandSpelled, -⟩ := spelled
      obtain ⟨between, leads⟩ := Expr.leads operandSpelled formed.1
      exact ⟨between, leads.onward rfl (joinGrade?_update op) (by decide)⟩
  | .call _ callee _, tokens, rest, spelled, formed => by
      obtain ⟨opened, last, after, calleeSpelled, -⟩ := spelled
      obtain ⟨between, leads⟩ := Expr.leads calleeSpelled formed.1
      exact ⟨between, leads.onward rfl rfl (by decide)⟩
  | .member _ object _, tokens, rest, spelled, formed => by
      obtain ⟨dot, after, objectSpelled, -⟩ := spelled
      obtain ⟨between, leads⟩ := Expr.leads objectSpelled formed.1
      exact ⟨between, leads.onward rfl rfl (by decide)⟩
  | .index _ object _, tokens, rest, spelled, formed => by
      obtain ⟨opened, last, after, objectSpelled, -⟩ := spelled
      obtain ⟨between, leads⟩ := Expr.leads objectSpelled formed.1
      exact ⟨between, leads.onward rfl rfl (by decide)⟩
  | .name _, _, rest, spelled, formed => ⟨rest, spelled, formed, .inl ⟨rfl, rfl⟩⟩
  | .number _ _, _, rest, spelled, formed => ⟨rest, spelled, formed, .inl ⟨rfl, rfl⟩⟩
  | .string _ _, _, rest, spelled, formed => ⟨rest, spelled, formed, .inl ⟨rfl, rfl⟩⟩
  | .constant _ _, _, rest, spelled, formed => ⟨rest, spelled, formed, .inl ⟨rfl, rfl⟩⟩
  | .array _ _, _, rest, spelled, formed => ⟨rest, spelled, formed, .inl ⟨rfl, rfl⟩⟩
  | .function _ _ _, _, rest, spelled, formed => ⟨rest, spelled, formed, .inl ⟨rfl, rfl⟩⟩
  | .group _ _, _, rest, spelled, formed => ⟨rest, spelled, formed, .inl ⟨rfl, rfl⟩⟩
  | .arrow _ _ _, _, rest, spelled, formed => ⟨rest, spelled, formed, .inl ⟨rfl, rfl⟩⟩
  | .unary _ _ _, _, rest, spelled, formed => ⟨rest, spelled, formed, .inl ⟨rfl, rfl⟩⟩
  | .update _ _ true _, _, rest, spelled, formed => ⟨rest, spelled, formed, .inl ⟨rfl, rfl⟩⟩

/-- The first tokens of an expression that does not start with another one. -/
inductive Expr.Front : Expr → List Token → List Token → Prop
  | name (x : Ident) (rest : List Token) : Front (.name x) (⟨.name x.name, x.loc⟩ :: rest) rest
  | group {loc first last : Loc} {inner : Expr} {between rest : List Token} :
      inner.Spells between (⟨.mark .closeParen, last⟩ :: rest) →
      Front (.group loc inner) (⟨.mark .openParen, first⟩ :: between) rest
  | function {loc first opened : Loc} {names : List Ident} {body : Block}
      {between rest : List Token} :
      Front (.function loc names body)
        (⟨.keyword .function, first⟩ :: ⟨.mark .openParen, opened⟩ :: between) rest
  | arrowName {loc first sign : Loc} {text : String} {head : ArrowHead} {body : ArrowBody}
      {between rest : List Token} :
      Front (.arrow loc head body) (⟨.name text, first⟩ :: ⟨.mark .arrow, sign⟩ :: between) rest
  | arrowParen {loc first : Loc} {head : ArrowHead} {body : ArrowBody}
      {between rest : List Token} :
      Front (.arrow loc head body) (⟨.mark .openParen, first⟩ :: between) rest
  | other {value : Expr} {terminal : Terminal} {loc : Loc} {between rest : List Token} :
      startsOther terminal = true → Front value (⟨terminal, loc⟩ :: between) rest

theorem Expr.front (leaf : value.isLeaf = true) (spelled : value.Spells tokens rest) :
    value.Front tokens rest := by
  cases value with
  | name x =>
      obtain rfl : tokens = _ := spelled
      exact .name x rest
  | number _ _ | string _ _ =>
      obtain rfl : tokens = _ := spelled
      exact .other rfl
  | constant _ word =>
      obtain rfl : tokens = _ := spelled
      exact .other (by cases word <;> rfl)
  | array _ _ =>
      obtain ⟨first, last, inner, rfl, -⟩ := spelled
      exact .other rfl
  | group _ inner =>
      obtain ⟨first, last, between, rfl, innerSpelled, -⟩ := spelled
      exact .group innerSpelled
  | function _ _ _ =>
      obtain ⟨first, opened, closed, inner, after, rfl, -⟩ := spelled
      exact .function
  | unary _ op _ =>
      obtain ⟨sign, after, rfl, -⟩ := spelled
      exact .other (by cases op <;> rfl)
  | update _ op before _ =>
      cases before with
      | false => cases leaf
      | true =>
          obtain ⟨sign, after, rfl, -⟩ := spelled
          exact .other (by cases op <;> rfl)
  | arrow _ head _ =>
      obtain ⟨start, arrow, after, headSpelled, -⟩ := spelled
      cases head with
      | empty =>
          obtain ⟨closed, rfl⟩ := headSpelled
          exact .arrowParen
      | name _ =>
          obtain ⟨rfl, -⟩ := headSpelled
          exact .arrowName
      | group _ =>
          obtain ⟨closed, inner, rfl, -⟩ := headSpelled
          exact .arrowParen
  | _ => cases leaf

theorem Expr.starts (spelled : value.Spells tokens rest) (formed : value.WellFormed) :
    ∃ terminal, next tokens = some terminal ∧ startsExpr terminal = true := by
  obtain ⟨between, leads⟩ := Expr.leads spelled formed
  have front := Expr.front value.isLeaf_leftmost leads.spells
  generalize value.leftmost = leaf at front
  cases front with
  | name | group | function | arrowName | arrowParen => exact ⟨_, rfl, rfl⟩
  | @other _ terminal _ _ _ starts =>
      refine ⟨terminal, rfl, ?_⟩
      unfold startsExpr
      split <;> first | rfl | exact starts

theorem Expr.follows_name {text : String} {loc : Loc} {more : List Token}
    (spelled : value.Spells (⟨.name text, loc⟩ :: more) rest) (formed : value.WellFormed) :
    value.leftmost = value ∧ more = rest ∨ ∃ join, (next more).bind joinGrade? = some join ∧
      (Grade.unary ≤ value.leftmost.grade → join < Grade.primary) := by
  obtain ⟨between, leads⟩ := Expr.leads spelled formed
  have front := Expr.front value.isLeaf_leftmost leads.spells
  have follow := leads.follow
  generalize value.leftmost = leaf at front follow ⊢
  cases front with
  | name =>
      rcases follow with whole | ⟨join, known, tight⟩
      · exact .inl whole
      · exact .inr ⟨join, known, fun _ => tight⟩
  | arrowName =>
      exact .inr ⟨Grade.primary, rfl, fun tight => absurd tight (by simp [Expr.grade, Grade.unary])⟩
  | other starts => cases starts

/-- An opening parenthesis at the start of an expression belongs to an expression in parentheses,
unless it starts an arrow function. -/
theorem Expr.follows_group {start : Loc} {more : List Token}
    (spelled : value.Spells (⟨.mark .openParen, start⟩ :: more) rest) (formed : value.WellFormed)
    (tight : Grade.unary ≤ value.leftmost.grade) :
    ∃ (inner : Expr) (closed : Loc) (after : List Token),
      inner.Read 0 more (⟨.mark .closeParen, closed⟩ :: after) ∧
        (value.leftmost = value ∧ after = rest ∨
          ∃ join, (next after).bind joinGrade? = some join ∧ join < Grade.primary) := by
  obtain ⟨between, leads⟩ := Expr.leads spelled formed
  have front := Expr.front value.isLeaf_leftmost leads.spells
  have inside := leads.wellFormed
  have follow := leads.follow
  generalize value.leftmost = leaf at front follow inside tight ⊢
  cases front with
  | @group _ _ last inner _ _ innerSpelled =>
      exact ⟨inner, last, between, ⟨innerSpelled, inside, Nat.zero_le _⟩, follow⟩
  | arrowParen => exact absurd tight (by simp [Expr.grade, Grade.unary])
  | other starts => cases starts

theorem Expr.follows_function {loc : Loc} {more : List Token}
    (spelled : value.Spells (⟨.keyword .function, loc⟩ :: more) rest) (formed : value.WellFormed) :
    next more = some (.mark .openParen) := by
  obtain ⟨between, leads⟩ := Expr.leads spelled formed
  have front := Expr.front value.isLeaf_leftmost leads.spells
  generalize value.leftmost = leaf at front
  cases front with
  | function => rfl
  | other starts => cases starts

/-! ## Expressions that are extended -/

/-- An expression, and the tokens after it, extended by one operator of a level that groups to the
left. -/
inductive Extends (grade : Nat) (left : Expr) : List Token → Expr → List Token → Prop
  | sequence {comma : Loc} {right : Expr} {between rest : List Token} : grade = 0 →
      right.Read Grade.assignment between rest →
      Extends grade left (⟨.mark .comma, comma⟩ :: between)
        (.sequence (left.loc.upTo right.loc) left right) rest
  | operation {op : InfixOp} {sign : Loc} {right : Expr} {between rest : List Token} :
      grade = Grade.operation + op.level → right.Read (Grade.operation + (op.level + 1)) between rest →
      Extends grade left (⟨.mark op.mark, sign⟩ :: between)
        (.operation (left.loc.upTo right.loc) op left right) rest
  | call {opened last : Loc} {args : List Expr} {between rest : List Token} : grade = Grade.call →
      exprsSpell args between (⟨.mark .closeParen, last⟩ :: rest) → exprsWellFormed args →
      Extends grade left (⟨.mark .openParen, opened⟩ :: between)
        (.call (left.loc.upTo last) left args) rest
  | member {dot : Loc} {x : Ident} {rest : List Token} : grade = Grade.call →
      Extends grade left (⟨.mark .dot, dot⟩ :: ⟨.name x.name, x.loc⟩ :: rest)
        (.member (left.loc.upTo x.loc) left x) rest
  | index {opened last : Loc} {key : Expr} {between rest : List Token} : grade = Grade.call →
      key.Read 0 between (⟨.mark .closeBracket, last⟩ :: rest) →
      Extends grade left (⟨.mark .openBracket, opened⟩ :: between)
        (.index (left.loc.upTo last) left key) rest

/-- An expression, and the tokens after it, extended any number of times. -/
inductive Continues (grade : Nat) : Expr → List Token → Expr → List Token → Prop
  | done {value : Expr} {rest : List Token} : Continues grade value rest value rest
  | more {left middle value : Expr} {tokens between rest : List Token} :
      Extends grade left tokens middle between → Continues grade middle between value rest →
      Continues grade left tokens value rest

theorem Extends.join {left middle : Expr} {between : List Token}
    (step : Extends grade left tokens middle between) :
    (next tokens).bind joinGrade? = some grade := by
  cases step with
  | sequence same => exact same ▸ rfl
  | @operation op _ _ _ _ same => exact same ▸ joinGrade?_infixOp op
  | call same => exact same ▸ rfl
  | member same => exact same ▸ rfl
  | index same => exact same ▸ rfl

theorem Continues.stops {left : Expr} (onward : Continues grade left tokens value rest)
    (stopped : Concrete.stops grade (next rest) = true) :
    Concrete.stops (grade + 1) (next tokens) = true := by
  cases onward with
  | done => exact stops_mono (Nat.le_succ _) stopped
  | more step _ => simp [Concrete.stops, step.join]

/-- Grades of operators that group to the left. -/
def groupsLeft (grade : Nat) : Prop :=
  grade = 0 ∨ Grade.operation ≤ grade ∧ grade < Grade.unary ∨ grade = Grade.call

theorem Continues.spine (chained : groupsLeft grade) : ∀ {value final : Expr}
    {tokens between rest : List Token}, value.Read grade tokens between →
    Continues grade value between final rest →
    ∃ (left : Expr) (middle : List Token),
      left.Read (grade + 1) tokens middle ∧ Continues grade left middle final rest
  | value, final, tokens, between, rest, read, onward => by
      by_cases tight : grade < value.grade
      · exact ⟨value, between, ⟨read.spells, read.wellFormed, tight⟩, onward⟩
      have same : grade = value.grade := Nat.le_antisymm read.grade_le (Nat.le_of_not_lt tight)
      have formed := read.wellFormed
      have spelled := read.spells
      match value with
      | .sequence _ left right =>
          obtain ⟨comma, after, leftSpelled, rightSpelled, rfl⟩ := spelled
          exact Continues.spine chained ⟨leftSpelled, formed.1, same ▸ Nat.zero_le _⟩
            (.more (.sequence same ⟨rightSpelled, formed.2.1, formed.2.2⟩) onward)
      | .operation _ op left right =>
          obtain ⟨sign, after, leftSpelled, rightSpelled, rfl⟩ := spelled
          exact Continues.spine chained ⟨leftSpelled, formed.1, same ▸ formed.2.1⟩
            (.more (.operation same ⟨rightSpelled, formed.2.2.1, formed.2.2.2⟩) onward)
      | .call _ callee args =>
          obtain ⟨opened, last, after, calleeSpelled, argsSpelled, rfl⟩ := spelled
          exact Continues.spine chained ⟨calleeSpelled, formed.1, same ▸ formed.2.1⟩
            (.more (.call same argsSpelled formed.2.2) onward)
      | .member _ object x =>
          obtain ⟨dot, after, objectSpelled, rfl, rfl⟩ := spelled
          exact Continues.spine chained ⟨objectSpelled, formed.1, same ▸ formed.2⟩
            (.more (.member same) onward)
      | .index _ object key =>
          obtain ⟨opened, last, after, objectSpelled, keySpelled, rfl⟩ := spelled
          exact Continues.spine chained ⟨objectSpelled, formed.1, same ▸ formed.2.1⟩
            (.more (.index same ⟨keySpelled, formed.2.2, Nat.zero_le _⟩) onward)
      | .assign .. | .arrow .. | .conditional .. | .unary .. | .update _ _ true _
      | .update _ _ false _ | .name _ | .number .. | .string .. | .constant .. | .array ..
      | .function .. | .group .. =>
          simp only [Expr.grade] at same
          simp only [groupsLeft, Grade.operation, Grade.unary, Grade.call] at chained
          omega

/-- An expression of a level that groups to the left is a tighter one that has been extended. -/
theorem Expr.Read.spine (read : value.Read grade tokens rest) (chained : groupsLeft grade) :
    ∃ (left : Expr) (middle : List Token),
      left.Read (grade + 1) tokens middle ∧ Continues grade left middle value rest :=
  Continues.spine chained read .done

end LoopCapture.Concrete
