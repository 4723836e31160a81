import LoopCapture.Proofs.Concrete.Rewriting
import LoopCapture.Proofs.Concrete.SpelledTerminals

/-!
# Other places for a tree

Tokens that carry the terminals of a tree are spelled by the same tree with other places. Trees that
are the same but for their places are equal once all places are left out.
-/

set_option autoImplicit false

namespace LoopCapture.Concrete

/-- Tokens that begin with the terminals of a word are taken, up to the end of the word, as a
relation of what is before and what is after says. -/
def Takes (word : List Terminal) (taken : List Token → List Token → Prop) : Prop :=
  ∀ (tokens : List Token) (terminals : List Terminal), terminalsOf tokens = word ++ terminals →
    ∃ rest, taken tokens rest ∧ terminalsOf rest = terminals

namespace Takes

variable {word more : List Terminal} {terminal : Terminal}
  {taken after : List Token → List Token → Prop}

theorem mono (takes : Takes word taken)
    (weaker : ∀ tokens rest, taken tokens rest → after tokens rest) : Takes word after := by
  intro tokens terminals same
  obtain ⟨rest, fits, restSame⟩ := takes tokens terminals same
  exact ⟨rest, weaker tokens rest fits, restSame⟩

theorem empty : Takes [] fun tokens rest => tokens = rest :=
  fun tokens _ same => ⟨tokens, rfl, same⟩

theorem append (first : Takes word taken) (second : Takes more after) :
    Takes (word ++ more) fun tokens rest =>
      ∃ between, taken tokens between ∧ after between rest := by
  intro tokens terminals same
  obtain ⟨between, fits, betweenSame⟩ := first tokens _ (same.trans (List.append_assoc ..))
  obtain ⟨rest, restFits, restSame⟩ := second between terminals betweenSame
  exact ⟨rest, ⟨between, fits, restFits⟩, restSame⟩

theorem one : Takes [terminal] fun tokens rest => ∃ loc, tokens = ⟨terminal, loc⟩ :: rest := by
  intro tokens terminals same
  obtain ⟨⟨found, loc⟩, rest, rfl, rfl, restSame⟩ := List.map_eq_cons_iff.mp same
  exact ⟨rest, ⟨loc, rfl⟩, restSame⟩

theorem cons (takes : Takes word taken) :
    Takes (terminal :: word) fun tokens rest =>
      ∃ loc between, tokens = ⟨terminal, loc⟩ :: between ∧ taken between rest := by
  refine (one.append takes).mono ?_
  rintro _ _ ⟨between, ⟨loc, rfl⟩, fits⟩
  exact ⟨loc, between, rfl, fits⟩

end Takes

namespace Respell

/-- The plan that wraps nothing. Rewriting by it leaves out the places. -/
abbrev nothing : WrapPlan := fun _ => none

/-- Tokens with the terminals of a part are spelled by one that is the same but for its places. -/
def Respells {α β : Type} (word : List Terminal) (spells : α → List Token → List Token → Prop)
    (unplaced : α → β) (part : α) : Prop :=
  Takes word fun tokens rest => ∃ found, spells found tokens rest ∧ unplaced found = unplaced part

theorem names : ∀ xs : List Ident,
    Respells (nameTerminals xs) namesSpell (List.map Ident.unplaced) xs
  | [] => Takes.empty.mono fun _ _ spelled => ⟨[], spelled, rfl⟩
  | [x] => by
      refine Takes.one.mono ?_
      rintro _ _ ⟨loc, rfl⟩
      exact ⟨[⟨x.name, loc⟩], rfl, rfl⟩
  | x :: y :: more => by
      refine (names (y :: more)).cons.cons.mono ?_
      rintro _ _ ⟨loc, _, rfl, comma, _, rfl, ys, spelled, equal⟩
      cases ys with
      | nil => cases equal
      | cons z zs =>
          exact ⟨⟨x.name, loc⟩ :: z :: zs, ⟨comma, _, rfl, spelled⟩, congrArg (List.cons _) equal⟩

theorem target (left : ForTarget) :
    Respells (targetTerminals left) targetSpells ForTarget.unplaced left := by
  cases left with
  | declared loc kind x =>
      refine Takes.one.cons.mono ?_
      rintro _ _ ⟨first, _, rfl, last, rfl⟩
      exact ⟨.declared (first.upTo last) kind ⟨x.name, last⟩, ⟨first, rfl, rfl⟩, rfl⟩
  | existing x =>
      refine Takes.one.mono ?_
      rintro _ _ ⟨loc, rfl⟩
      exact ⟨.existing ⟨x.name, loc⟩, rfl, rfl⟩

theorem label (x : Option Ident) :
    Respells (labelTerminals x) labelSpells (Option.map Ident.unplaced) x := by
  cases x with
  | none => exact Takes.empty.mono fun _ _ spelled => ⟨none, spelled, rfl⟩
  | some x =>
      refine Takes.one.mono ?_
      rintro _ _ ⟨loc, rfl⟩
      exact ⟨some ⟨x.name, loc⟩, rfl, rfl⟩

mutual

/-- Tokens with the terminals of an expression spell the expression, with other places. -/
theorem expr : ∀ value : Expr,
    Respells value.terminals Expr.Spells (Rewrite.expr nothing) value
  | .name x => by
      refine Takes.one.mono ?_
      rintro _ _ ⟨loc, rfl⟩
      exact ⟨.name ⟨x.name, loc⟩, rfl, by simp [Rewrite.expr, Ident.unplaced]⟩
  | .number _ text => by
      refine Takes.one.mono ?_
      rintro _ _ ⟨loc, rfl⟩
      exact ⟨.number loc text, rfl, by simp [Rewrite.expr]⟩
  | .string _ text => by
      refine Takes.one.mono ?_
      rintro _ _ ⟨loc, rfl⟩
      exact ⟨.string loc text, rfl, by simp [Rewrite.expr]⟩
  | .constant _ value => by
      refine Takes.one.mono ?_
      rintro _ _ ⟨loc, rfl⟩
      exact ⟨.constant loc value, rfl, by simp [Rewrite.expr]⟩
  | .array _ items => by
      refine ((exprs items).append .one).cons.mono ?_
      rintro _ _ ⟨first, _, rfl, _, ⟨parts, spelled, equal⟩, last, rfl⟩
      exact ⟨.array (first.upTo last) parts, ⟨first, last, _, rfl, spelled, rfl⟩,
        by simp [Rewrite.expr, equal]⟩
  | .function _ xs body => by
      refine ((names xs).append (block body).cons).cons.cons.mono ?_
      rintro _ _ ⟨first, _, rfl, opened, _, rfl, _, ⟨ys, ysSpelled, ysEqual⟩, closed, _, rfl,
        inside, spelled, equal⟩
      exact ⟨.function (first.upTo inside.loc) ys inside,
        ⟨first, opened, closed, _, _, rfl, ysSpelled, spelled, rfl⟩,
        by simp [Rewrite.expr, ysEqual, equal]⟩
  | .group _ inner => by
      refine ((expr inner).append .one).cons.mono ?_
      rintro _ _ ⟨first, _, rfl, _, ⟨part, spelled, equal⟩, last, rfl⟩
      exact ⟨.group (first.upTo last) part, ⟨first, last, _, rfl, spelled, rfl⟩,
        by simp [Rewrite.expr, equal]⟩
  | .arrow _ head body => by
      refine ((arrowHead head).append (arrowBody body).cons).mono ?_
      rintro _ _ ⟨_, ⟨front, ⟨start, frontSpelled⟩, frontEqual⟩, arrow, _, rfl, inside, spelled,
        equal⟩
      exact ⟨.arrow (start.upTo inside.loc) front inside,
        ⟨start, arrow, _, frontSpelled, spelled, rfl⟩, by simp [Rewrite.expr, frontEqual, equal]⟩
  | .sequence _ left right => by
      refine ((expr left).append (expr right).cons).mono ?_
      rintro _ _ ⟨_, ⟨first, firstSpelled, firstEqual⟩, comma, _, rfl, second, spelled, equal⟩
      exact ⟨.sequence (first.loc.upTo second.loc) first second,
        ⟨comma, _, firstSpelled, spelled, rfl⟩, by simp [Rewrite.expr, firstEqual, equal]⟩
  | .assign _ op target value => by
      refine ((expr target).append (expr value).cons).mono ?_
      rintro _ _ ⟨_, ⟨first, firstSpelled, firstEqual⟩, sign, _, rfl, second, spelled, equal⟩
      exact ⟨.assign (first.loc.upTo second.loc) op first second,
        ⟨sign, _, firstSpelled, spelled, rfl⟩, by simp [Rewrite.expr, firstEqual, equal]⟩
  | .conditional _ test yes no => by
      refine ((expr test).append ((expr yes).append (expr no).cons).cons).mono ?_
      rintro _ _ ⟨_, ⟨first, firstSpelled, firstEqual⟩, question, _, rfl, _,
        ⟨second, secondSpelled, secondEqual⟩, colon, _, rfl, third, spelled, equal⟩
      exact ⟨.conditional (first.loc.upTo third.loc) first second third,
        ⟨question, colon, _, _, firstSpelled, secondSpelled, spelled, rfl⟩,
        by simp [Rewrite.expr, firstEqual, secondEqual, equal]⟩
  | .operation _ op left right => by
      refine ((expr left).append (expr right).cons).mono ?_
      rintro _ _ ⟨_, ⟨first, firstSpelled, firstEqual⟩, sign, _, rfl, second, spelled, equal⟩
      exact ⟨.operation (first.loc.upTo second.loc) op first second,
        ⟨sign, _, firstSpelled, spelled, rfl⟩, by simp [Rewrite.expr, firstEqual, equal]⟩
  | .unary _ op operand => by
      refine (expr operand).cons.mono ?_
      rintro _ _ ⟨sign, _, rfl, part, spelled, equal⟩
      exact ⟨.unary (sign.upTo part.loc) op part, ⟨sign, _, rfl, spelled, rfl⟩,
        by simp [Rewrite.expr, equal]⟩
  | .update _ op true operand => by
      refine (expr operand).cons.mono ?_
      rintro _ _ ⟨sign, _, rfl, part, spelled, equal⟩
      exact ⟨.update (sign.upTo part.loc) op true part, ⟨sign, _, rfl, spelled, rfl⟩,
        by simp [Rewrite.expr, equal]⟩
  | .update _ op false operand => by
      refine ((expr operand).append .one).mono ?_
      rintro _ _ ⟨_, ⟨part, spelled, equal⟩, sign, rfl⟩
      exact ⟨.update (part.loc.upTo sign) op false part, ⟨sign, spelled, rfl⟩,
        by simp [Rewrite.expr, equal]⟩
  | .call _ callee args => by
      refine ((expr callee).append ((exprs args).append .one).cons).mono ?_
      rintro _ _ ⟨_, ⟨part, partSpelled, partEqual⟩, opened, _, rfl, _, ⟨parts, spelled, equal⟩,
        last, rfl⟩
      exact ⟨.call (part.loc.upTo last) part parts,
        ⟨opened, last, _, partSpelled, spelled, rfl⟩, by simp [Rewrite.expr, partEqual, equal]⟩
  | .member _ object property => by
      refine ((expr object).append Takes.one.cons).mono ?_
      rintro _ _ ⟨_, ⟨part, spelled, equal⟩, dot, _, rfl, last, rfl⟩
      exact ⟨.member (part.loc.upTo last) part ⟨property.name, last⟩,
        ⟨dot, _, spelled, rfl, rfl⟩, by simp [Rewrite.expr, equal, Ident.unplaced]⟩
  | .index _ object key => by
      refine ((expr object).append ((expr key).append .one).cons).mono ?_
      rintro _ _ ⟨_, ⟨part, partSpelled, partEqual⟩, opened, _, rfl, _, ⟨inside, spelled, equal⟩,
        last, rfl⟩
      exact ⟨.index (part.loc.upTo last) part inside,
        ⟨opened, last, _, partSpelled, spelled, rfl⟩, by simp [Rewrite.expr, partEqual, equal]⟩

theorem exprs : ∀ items : List Expr,
    Respells (exprTerminals items) exprsSpell (Rewrite.exprs nothing) items
  | [] => Takes.empty.mono fun _ _ spelled => ⟨[], spelled, rfl⟩
  | [first] => by
      refine ((expr first).append .empty).mono ?_
      rintro _ _ ⟨_, ⟨part, spelled, equal⟩, rfl⟩
      exact ⟨[part], spelled, by simp [Rewrite.exprs, equal]⟩
  | first :: second :: others => by
      refine ((expr first).append (exprs (second :: others)).cons).mono ?_
      rintro _ _ ⟨_, ⟨part, partSpelled, partEqual⟩, comma, _, rfl, parts, spelled, equal⟩
      cases parts with
      | nil => cases equal
      | cons next parts =>
          refine ⟨part :: next :: parts, ⟨comma, _, partSpelled, spelled⟩, ?_⟩
          rw [Rewrite.exprs, partEqual, equal, ← Rewrite.exprs]

theorem exprOption : ∀ value : Option Expr,
    Respells (exprOptionTerminals value) exprOptionSpells (Rewrite.exprOption nothing) value
  | none => Takes.empty.mono fun _ _ spelled => ⟨none, spelled, rfl⟩
  | some value => by
      refine (expr value).mono ?_
      rintro _ _ ⟨part, spelled, equal⟩
      exact ⟨some part, spelled, by simp [Rewrite.exprOption, equal]⟩

theorem arrowHead : ∀ head : ArrowHead,
    Respells head.terminals (fun found tokens rest => ∃ start, found.Spells start tokens rest)
      (Rewrite.arrowHead nothing) head
  | .empty => by
      refine Takes.one.cons.mono ?_
      rintro _ _ ⟨start, _, rfl, closed, rfl⟩
      exact ⟨.empty, ⟨start, closed, rfl⟩, rfl⟩
  | .name x => by
      refine Takes.one.mono ?_
      rintro _ _ ⟨start, rfl⟩
      exact ⟨.name ⟨x.name, start⟩, ⟨start, rfl, rfl⟩, rfl⟩
  | .group inner => by
      refine ((expr inner).append .one).cons.mono ?_
      rintro _ _ ⟨start, _, rfl, _, ⟨part, spelled, equal⟩, closed, rfl⟩
      exact ⟨.group part, ⟨start, closed, _, rfl, spelled⟩, by simp [Rewrite.arrowHead, equal]⟩

theorem arrowBody : ∀ body : ArrowBody,
    Respells body.terminals ArrowBody.Spells (Rewrite.arrowBody nothing) body
  | .block body => by
      refine (block body).mono ?_
      rintro _ _ ⟨part, spelled, equal⟩
      exact ⟨.block part, spelled, by simp [Rewrite.arrowBody, equal]⟩
  | .expr value => by
      refine (expr value).mono ?_
      rintro _ _ ⟨part, spelled, equal⟩
      exact ⟨.expr part, spelled, by simp [Rewrite.arrowBody, equal]⟩

theorem block : ∀ body : Block,
    Respells body.terminals Block.Spells (Rewrite.block nothing) body
  | .mk _ body => by
      refine ((stmts body).append .one).cons.mono ?_
      rintro _ _ ⟨first, _, rfl, _, ⟨parts, spelled, equal⟩, last, rfl⟩
      exact ⟨.mk (first.upTo last) parts, ⟨first, last, _, rfl, spelled, rfl⟩,
        by simp [Rewrite.block, equal]⟩

theorem blockOption : ∀ body : Option Block,
    Respells (finalizerTerminals body) finalizerSpells (Rewrite.blockOption nothing) body
  | none => Takes.empty.mono fun _ _ spelled => ⟨none, spelled, rfl⟩
  | some body => by
      refine (block body).cons.mono ?_
      rintro _ _ ⟨word, _, rfl, part, spelled, equal⟩
      exact ⟨some part, ⟨word, _, rfl, spelled⟩, by simp [Rewrite.blockOption, equal]⟩

theorem declarators : ∀ items : List Declarator,
    Respells (declaratorTerminals items) declaratorsSpell (Rewrite.declarators nothing) items
  | [] => Takes.empty.mono fun _ _ spelled => ⟨[], spelled, rfl⟩
  | [.mk _ x init] => by
      refine ((initial init).append .empty).cons.mono ?_
      rintro _ _ ⟨place, _, rfl, _, ⟨value, spelled, equal⟩, rfl⟩
      obtain ⟨loc, spelled⟩ := spelled ⟨x.name, place⟩
      exact ⟨[.mk loc ⟨x.name, place⟩ value], ⟨_, rfl, spelled⟩,
        by simp [Rewrite.declarators, equal, Ident.unplaced]⟩
  | .mk _ x init :: second :: others => by
      refine ((initial init).append (declarators (second :: others)).cons).cons.mono ?_
      rintro _ _ ⟨place, _, rfl, _, ⟨value, valueSpelled, valueEqual⟩, comma, _, rfl, parts,
        spelled, equal⟩
      obtain ⟨loc, valueSpelled⟩ := valueSpelled ⟨x.name, place⟩
      cases parts with
      | nil => cases (Rewrite.declarators_eq_nil nothing).mp equal.symm
      | cons next parts =>
          refine ⟨.mk loc ⟨x.name, place⟩ value :: next :: parts,
            ⟨_, rfl, comma, _, valueSpelled, spelled⟩, ?_⟩
          rw [Rewrite.declarators, valueEqual, equal, Rewrite.declarators]
          rfl

theorem initial : ∀ value : Option Expr,
    Respells (initTerminals value)
      (fun found tokens rest => ∀ x, ∃ loc, initSpells x loc found tokens rest)
      (Rewrite.exprOption nothing) value
  | none => Takes.empty.mono fun _ _ spelled => ⟨none, fun x => ⟨x.loc, spelled, rfl⟩, rfl⟩
  | some value => by
      refine (expr value).cons.mono ?_
      rintro _ _ ⟨sign, _, rfl, part, spelled, equal⟩
      exact ⟨some part, fun x => ⟨x.loc.upTo part.loc, sign, _, rfl, spelled, rfl⟩,
        by simp [Rewrite.exprOption, equal]⟩

theorem declaration : ∀ item : Declaration,
    Respells item.terminals Declaration.Spells (Rewrite.declaration nothing) item
  | .mk _ kind items => by
      refine (declarators items).cons.mono ?_
      rintro _ _ ⟨first, _, rfl, parts, spelled, equal⟩
      exact ⟨.mk (first.upTo ((parts.getLast?.map Declarator.loc).getD first)) kind parts,
        ⟨first, _, rfl, spelled, rfl⟩, by simp [Rewrite.declaration, equal]⟩

theorem forInit : ∀ init : Option ForInit,
    Respells (forInitTerminals init) forInitSpells (Rewrite.forInit nothing) init
  | none => Takes.empty.mono fun _ _ spelled => ⟨none, spelled, rfl⟩
  | some (.declaration item) => by
      refine (declaration item).mono ?_
      rintro _ _ ⟨part, spelled, equal⟩
      exact ⟨some (.declaration part), spelled, by simp [Rewrite.forInit, equal]⟩
  | some (.expr value) => by
      refine (expr value).mono ?_
      rintro _ _ ⟨part, spelled, equal⟩
      exact ⟨some (.expr part), spelled, by simp [Rewrite.forInit, equal]⟩

theorem handler : ∀ clause : Option CatchClause,
    Respells (handlerTerminals clause) handlerSpells (Rewrite.handler nothing) clause
  | none => Takes.empty.mono fun _ _ spelled => ⟨none, spelled, rfl⟩
  | some (.mk _ param body) => by
      refine (block body).cons.cons.cons.cons.mono ?_
      rintro _ _ ⟨first, _, rfl, opened, _, rfl, place, _, rfl, closed, _, rfl, part, spelled,
        equal⟩
      exact ⟨some (.mk (first.upTo part.loc) ⟨param.name, place⟩ part),
        ⟨first, opened, closed, _, rfl, spelled, rfl⟩,
        by simp [Rewrite.handler, equal, Ident.unplaced]⟩

theorem cases : ∀ items : List Case,
    Respells (caseTerminals items) casesSpell (Rewrite.cases nothing) items
  | [] => Takes.empty.mono fun _ _ spelled => ⟨[], spelled, rfl⟩
  | .mk _ test body :: more => by
      refine ((caseTest test).append ((stmts body).append (cases more)).cons).mono ?_
      rintro _ _ ⟨_, ⟨value, ⟨first, valueSpelled⟩, valueEqual⟩, colon, _, rfl, _,
        ⟨parts, partsSpelled, partsEqual⟩, others, spelled, equal⟩
      exact ⟨.mk (first.upTo ((parts.getLast?.map Stmt.loc).getD colon)) value parts :: others,
        ⟨first, colon, _, _, valueSpelled, partsSpelled, spelled, rfl⟩,
        by simp [Rewrite.cases, valueEqual, partsEqual, equal]⟩

theorem caseTest : ∀ test : Option Expr,
    Respells (testTerminals test)
      (fun found tokens rest => ∃ first, testSpells first found tokens rest)
      (Rewrite.exprOption nothing) test
  | none => Takes.one.mono fun _ _ spelled => ⟨none, spelled, rfl⟩
  | some test => by
      refine (expr test).cons.mono ?_
      rintro _ _ ⟨first, _, rfl, part, spelled, equal⟩
      exact ⟨some part, ⟨first, _, rfl, spelled⟩, by simp [Rewrite.exprOption, equal]⟩

/-- Tokens with the terminals of a statement spell the statement, with other places. -/
theorem stmt : ∀ body : Stmt,
    Respells body.terminals Stmt.Spells (Rewrite.stmt nothing) body
  | .declaration _ item => by
      refine ((declaration item).append .one).mono ?_
      rintro _ _ ⟨_, ⟨part, spelled, equal⟩, last, rfl⟩
      exact ⟨.declaration (part.loc.upTo last) part, ⟨last, spelled, rfl⟩,
        by simp [Rewrite.stmt, equal]⟩
  | .function _ name xs body => by
      refine ((names xs).append (block body).cons).cons.cons.cons.mono ?_
      rintro _ _ ⟨first, _, rfl, place, _, rfl, opened, _, rfl, _, ⟨ys, ysSpelled, ysEqual⟩, closed,
        _, rfl, part, spelled, equal⟩
      exact ⟨.function (first.upTo part.loc) ⟨name.name, place⟩ ys part,
        ⟨first, opened, closed, _, _, rfl, ysSpelled, spelled, rfl⟩,
        by simp [Rewrite.stmt, ysEqual, equal, Ident.unplaced]⟩
  | .block body => by
      refine (block body).mono ?_
      rintro _ _ ⟨part, spelled, equal⟩
      exact ⟨.block part, spelled, by simp [Rewrite.stmt, equal]⟩
  | .ifElse _ test yes no => by
      refine ((expr test).append ((stmt yes).append (stmtOption no)).cons).cons.cons.mono ?_
      rintro _ _ ⟨first, _, rfl, opened, _, rfl, _, ⟨value, valueSpelled, valueEqual⟩, closed, _,
        rfl, _, ⟨part, partSpelled, partEqual⟩, other, spelled, equal⟩
      exact ⟨.ifElse (first.upTo ((other.map Stmt.loc).getD part.loc)) value part other,
        ⟨first, opened, closed, _, _, _, rfl, valueSpelled, partSpelled, spelled, rfl⟩,
        by simp [Rewrite.stmt, valueEqual, partEqual, equal]⟩
  | .forLoop _ init test update body => by
      refine ((forInit init).append ((exprOption test).append
        ((exprOption update).append (stmt body).cons).cons).cons).cons.cons.mono ?_
      rintro _ _ ⟨first, _, rfl, opened, _, rfl, _, ⟨head, headSpelled, headEqual⟩, one, _, rfl, _,
        ⟨value, valueSpelled, valueEqual⟩, two, _, rfl, _, ⟨change, changeSpelled, changeEqual⟩,
        closed, _, rfl, part, spelled, equal⟩
      exact ⟨.forLoop (first.upTo part.loc) head value change part,
        ⟨first, opened, one, two, closed, _, _, _, _, rfl, headSpelled, valueSpelled, changeSpelled,
          spelled, rfl⟩,
        by simp [Rewrite.stmt, headEqual, valueEqual, changeEqual, equal, Stmt.wrappedIf]⟩
  | .forEach _ kind left subject body => by
      refine ((target left).append ((expr subject).append (stmt body).cons).cons).cons.cons.mono ?_
      rintro _ _ ⟨first, _, rfl, opened, _, rfl, _, ⟨goal, goalSpelled, goalEqual⟩, word, _, rfl, _,
        ⟨value, valueSpelled, valueEqual⟩, closed, _, rfl, part, spelled, equal⟩
      exact ⟨.forEach (first.upTo part.loc) kind goal value part,
        ⟨first, opened, word, closed, _, _, _, rfl, goalSpelled, valueSpelled, spelled, rfl⟩,
        by simp [Rewrite.stmt, goalEqual, valueEqual, equal, Stmt.wrappedIf]⟩
  | .whileLoop _ test body => by
      refine ((expr test).append (stmt body).cons).cons.cons.mono ?_
      rintro _ _ ⟨first, _, rfl, opened, _, rfl, _, ⟨value, valueSpelled, valueEqual⟩, closed, _,
        rfl, part, spelled, equal⟩
      exact ⟨.whileLoop (first.upTo part.loc) value part,
        ⟨first, opened, closed, _, _, rfl, valueSpelled, spelled, rfl⟩,
        by simp [Rewrite.stmt, valueEqual, equal, Stmt.wrappedIf]⟩
  | .doWhile _ body test => by
      refine ((stmt body).append ((expr test).append Takes.one.cons).cons.cons).cons.mono ?_
      rintro _ _ ⟨first, _, rfl, _, ⟨part, partSpelled, partEqual⟩, word, _, rfl, opened, _, rfl, _,
        ⟨value, spelled, equal⟩, closed, _, rfl, last, rfl⟩
      exact ⟨.doWhile (first.upTo last) part value,
        ⟨first, word, opened, closed, last, _, _, rfl, partSpelled, spelled, rfl⟩,
        by simp [Rewrite.stmt, partEqual, equal, Stmt.wrappedIf]⟩
  | .returns _ value => by
      refine ((exprOption value).append .one).cons.mono ?_
      rintro _ _ ⟨first, _, rfl, _, ⟨part, spelled, equal⟩, last, rfl⟩
      exact ⟨.returns (first.upTo last) part, ⟨first, last, _, rfl, spelled, rfl⟩,
        by simp [Rewrite.stmt, equal]⟩
  | .breaks _ x => by
      refine ((label x).append .one).cons.mono ?_
      rintro _ _ ⟨first, _, rfl, _, ⟨part, spelled, equal⟩, last, rfl⟩
      exact ⟨.breaks (first.upTo last) part, ⟨first, last, _, rfl, spelled, rfl⟩,
        by simp [Rewrite.stmt, equal]⟩
  | .continues _ x => by
      refine ((label x).append .one).cons.mono ?_
      rintro _ _ ⟨first, _, rfl, _, ⟨part, spelled, equal⟩, last, rfl⟩
      exact ⟨.continues (first.upTo last) part, ⟨first, last, _, rfl, spelled, rfl⟩,
        by simp [Rewrite.stmt, equal]⟩
  | .throws _ value => by
      refine ((expr value).append .one).cons.mono ?_
      rintro _ _ ⟨first, _, rfl, _, ⟨part, spelled, equal⟩, last, rfl⟩
      exact ⟨.throws (first.upTo last) part, ⟨first, last, _, rfl, spelled, rfl⟩,
        by simp [Rewrite.stmt, equal]⟩
  | .tryCatch _ body clause finalizer => by
      refine ((block body).append ((handler clause).append (blockOption finalizer))).cons.mono ?_
      rintro _ _ ⟨first, _, rfl, _, ⟨part, partSpelled, partEqual⟩, _,
        ⟨caught, caughtSpelled, caughtEqual⟩, final, spelled, equal⟩
      exact ⟨.tryCatch (first.upTo ((final.map Block.loc).getD
          ((caught.map CatchClause.loc).getD part.loc))) part caught final,
        ⟨first, _, _, _, rfl, partSpelled, caughtSpelled, spelled, rfl⟩,
        by simp [Rewrite.stmt, partEqual, caughtEqual, equal]⟩
  | .switch _ subject items => by
      refine ((expr subject).append ((cases items).append .one).cons.cons).cons.cons.mono ?_
      rintro _ _ ⟨first, _, rfl, opened, _, rfl, _, ⟨value, valueSpelled, valueEqual⟩, closed, _,
        rfl, brace, _, rfl, _, ⟨parts, spelled, equal⟩, last, rfl⟩
      exact ⟨.switch (first.upTo last) value parts,
        ⟨first, opened, closed, brace, last, _, _, rfl, valueSpelled, spelled, rfl⟩,
        by simp [Rewrite.stmt, valueEqual, equal]⟩
  | .labeled _ x body => by
      refine (stmt body).cons.cons.mono ?_
      rintro _ _ ⟨place, _, rfl, colon, _, rfl, part, spelled, equal⟩
      exact ⟨.labeled (place.upTo part.loc) ⟨x.name, place⟩ part,
        ⟨colon, _, rfl, spelled, rfl⟩, by simp [Rewrite.stmt, equal, Ident.unplaced]⟩
  | .expr _ value => by
      refine ((expr value).append .one).mono ?_
      rintro _ _ ⟨_, ⟨part, spelled, equal⟩, last, rfl⟩
      exact ⟨.expr (part.loc.upTo last) part, ⟨last, spelled, rfl⟩, by simp [Rewrite.stmt, equal]⟩
  | .empty _ => by
      refine Takes.one.mono ?_
      rintro _ _ ⟨loc, rfl⟩
      exact ⟨.empty loc, rfl, by simp [Rewrite.stmt]⟩

theorem stmtOption : ∀ body : Option Stmt,
    Respells (elseTerminals body) elseSpells (Rewrite.stmtOption nothing) body
  | none => Takes.empty.mono fun _ _ spelled => ⟨none, spelled, rfl⟩
  | some body => by
      refine (stmt body).cons.mono ?_
      rintro _ _ ⟨word, _, rfl, part, spelled, equal⟩
      exact ⟨some part, ⟨word, _, rfl, spelled⟩, by simp [Rewrite.stmtOption, equal]⟩

theorem stmts : ∀ body : List Stmt,
    Respells (stmtTerminals body) stmtsSpell (Rewrite.stmts nothing) body
  | [] => Takes.empty.mono fun _ _ spelled => ⟨[], spelled, rfl⟩
  | first :: more => by
      refine ((stmt first).append (stmts more)).mono ?_
      rintro _ _ ⟨_, ⟨part, partSpelled, partEqual⟩, parts, spelled, equal⟩
      exact ⟨part :: parts, ⟨_, partSpelled, spelled⟩, by simp [Rewrite.stmts, partEqual, equal]⟩

end

end Respell

end LoopCapture.Concrete
