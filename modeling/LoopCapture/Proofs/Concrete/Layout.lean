import LoopCapture.Proofs.Concrete.Anchors
import LoopCapture.Proofs.Concrete.Spelling
import LoopCapture.Proofs.Outline.Layout

/-!
# Places of concrete trees

The tokens of a text lie one after the other. So do the places of what they spell: the shape of a
concrete tree is laid out in order.
-/

set_option autoImplicit false

namespace LoopCapture

namespace Token

/-- Tokens that lie one after the other between two offsets, none of them empty. -/
def Ordered (limit : Nat) : Nat → List Token → Prop
  | start, [] => start ≤ limit
  | start, token :: rest =>
    start ≤ token.loc.start ∧ token.loc.start < token.loc.stop ∧ Ordered limit token.loc.stop rest

variable {limit start : Nat}

theorem Ordered.mono {first : Nat} {tokens : List Token} (before : first ≤ start)
    (ordered : Ordered limit start tokens) : Ordered limit first tokens := by
  cases tokens with
  | nil => exact before.trans ordered
  | cons token rest => exact ⟨before.trans ordered.1, ordered.2⟩

end Token

namespace Outline

theorem LaidAll.inSlot {trees : List (Tree Label)} {start stop : Nat} (slot : Slot)
    (laid : LaidAll start stop trees) : LaidAll start stop (trees.map (Outline.inSlot slot)) := by
  induction trees generalizing start with
  | nil => exact laid
  | cons tree rest ih =>
      obtain ⟨label, children⟩ := tree
      exact ⟨laid.1, laid.2.1, ih laid.2.2⟩

theorem LaidAll.commaItems {tree : Tree Label} {start stop : Nat}
  (laid : LaidAll start stop [tree]) :
    LaidAll start stop (commaItems tree) := by
  obtain ⟨label, children⟩ := tree
  unfold Outline.commaItems
  split
  · exact LaidAll.mono (laid.1.trans label.start_le_inside) (label.ending_le_stop.trans laid.2.2)
      laid.2.1.2
  · exact laid

theorem Laid.node {slot : Slot} {form : Form} {loc : Loc} {shapes : List (Tree Label)}
    {start stop : Nat} (row : LaidAll start stop shapes) (plain : form.leads = false)
    (before : loc.start ≤ start) (after : stop ≤ loc.stop) (nonempty : loc.start < loc.stop) :
    Laid (.node ⟨slot, form, loc⟩ shapes) := by
  have notBlock : form ≠ .block := by
    rintro rfl
    cases plain
  refine ⟨nonempty, row.mono ?_ ?_⟩
  · simpa [Label.inside, plain] using before
  · simpa [Label.ending, notBlock] using after

theorem Laid.leaf {slot : Slot} {form : Form} {loc : Loc} (plain : form.leads = false)
    (nonempty : loc.start < loc.stop) : Laid (leaf slot form loc) :=
  Laid.node (Nat.le_refl _ : LaidAll loc.start loc.start []) plain (Nat.le_refl _) nonempty.le
    nonempty

theorem Laid.ident {slot : Slot} {x : Ident} (nonempty : x.loc.start < x.loc.stop) :
    Laid (ident slot x) :=
  Laid.leaf rfl nonempty

end Outline

namespace Concrete

open Outline Token
variable {slot : Slot} {rest : List Token} {start : Nat}

/-- Tokens of a text that lie one after the other behind an offset. -/
structure Ahead (all : List Token) (limit start : Nat) (tokens : List Token) : Prop where
  ordered : Ordered limit start tokens
  among : tokens ⊆ all

/-- A token behind an offset, with the tokens after it. -/
structure Opens (all : List Token) (limit start : Nat) (loc : Loc) (rest : List Token) : Prop where
  before : start ≤ loc.start
  nonempty : loc.start < loc.stop
  starts : StartsAt all loc
  later : Ahead all limit loc.stop rest

/-- What a row of parts takes up: its shapes lie between two offsets, and the tokens after it lie
behind the second one. -/
structure Spread (all : List Token) (limit start stop : Nat) (shapes : List (Tree Label))
    (rest : List Token) : Prop where
  row : LaidAll start stop shapes
  anchored : AnchoredAll all shapes
  ahead : Ahead all limit stop rest

/-- What a part takes up: its shape lies within its place, and the tokens after it lie behind it. -/
structure Placed (all : List Token) (limit before : Nat) (loc : Loc) (shape : Tree Label)
    (rest : List Token) : Prop where
  first : before ≤ loc.start
  inside : loc.start ≤ shape.label.loc.start
  laid : Laid shape
  last : shape.label.loc.stop ≤ loc.stop
  starts : StartsAt all loc
  anchored : AnchoredAll all [shape]
  ahead : Ahead all limit loc.stop rest

variable {all : List Token} {limit : Nat}

namespace Ahead

variable {start : Nat} {terminal : Terminal} {loc : Loc} {rest : List Token}

theorem mem (ahead : Ahead all limit start (⟨terminal, loc⟩ :: rest)) : ⟨terminal, loc⟩ ∈ all :=
  ahead.among List.mem_cons_self

theorem opens (ahead : Ahead all limit start (⟨terminal, loc⟩ :: rest)) :
    Opens all limit start loc rest where
  before := ahead.ordered.1
  nonempty := ahead.ordered.2.1
  starts := .of_mem ahead.mem
  later := ⟨ahead.ordered.2.2, fun _ member => ahead.among (List.mem_cons_of_mem _ member)⟩

theorem mono {first : Nat} (before : first ≤ start) (ahead : Ahead all limit start rest) :
    Ahead all limit first rest :=
  ⟨ahead.ordered.mono before, ahead.among⟩

end Ahead

namespace Placed

variable {before : Nat} {loc : Loc} {shape : Tree Label} {rest : List Token}

theorem nonempty (placed : Placed all limit before loc shape rest) : loc.start < loc.stop :=
  lt_of_le_of_lt placed.inside (lt_of_lt_of_le placed.laid.start_lt placed.last)

theorem spread (placed : Placed all limit before loc shape rest) :
    Spread all limit before loc.stop [shape] rest :=
  ⟨.single (placed.first.trans placed.inside) placed.laid placed.last, placed.anchored,
    placed.ahead⟩

theorem of_laid (first : before ≤ loc.start) (same : shape.label.loc = loc) (laid : Laid shape)
    (starts : StartsAt all loc) (anchored : AnchoredAll all [shape])
    (ahead : Ahead all limit loc.stop rest) : Placed all limit before loc shape rest :=
  ⟨first, same ▸ Nat.le_refl _, laid, same ▸ Nat.le_refl _, starts, anchored, ahead⟩

end Placed

namespace Spread

variable {start middle stop : Nat} {shapes others : List (Tree Label)} {rest after : List Token}

theorem le (spread : Spread all limit start stop shapes rest) : start ≤ stop := spread.row.start_le

theorem none (ahead : Ahead all limit start rest) : Spread all limit start start [] rest :=
  ⟨Nat.le_refl _, .nil, ahead⟩

theorem token {terminal : Terminal} {loc : Loc}
    (spread : Spread all limit start stop shapes (⟨terminal, loc⟩ :: rest)) :
    Spread all limit start loc.stop shapes rest := by
  obtain ⟨behind, nonempty, -, later⟩ := spread.ahead.opens
  exact ⟨spread.row.mono (Nat.le_refl _) (by omega), spread.anchored, later⟩

theorem append (spread : Spread all limit start middle shapes rest)
    (next : Spread all limit middle stop others after) :
    Spread all limit start stop (shapes ++ others) after :=
  ⟨spread.row.append next.row, spread.anchored.append next.anchored, next.ahead⟩

end Spread

theorem placed_token {form : Form} {terminal : Terminal} {loc : Loc} (plain : form.leads = false)
    (here : Label.Anchored all ⟨slot, form, loc⟩)
    (ahead : Ahead all limit start (⟨terminal, loc⟩ :: rest)) :
    Placed all limit start loc (leaf slot form loc) rest := by
  have lead := ahead.opens
  exact .of_laid lead.before rfl (Laid.leaf plain lead.nonempty) lead.starts (.node here .nil)
    lead.later

theorem placed_ident {x : Ident} (ahead : Ahead all limit start (⟨.name x.name, x.loc⟩ :: rest)) :
    Placed all limit start x.loc (ident slot x) rest := by
  have lead := ahead.opens
  exact .of_laid lead.before rfl (Laid.ident lead.nonempty) lead.starts (.ident ahead.mem)
    lead.later

theorem placed_after {form : Form} {before : Nat} {opening closing : Loc}
    {shapes : List (Tree Label)} {stop : Nat} {inner : List Token} (plain : form.isPlain = true)
    (lead : Opens all limit before opening inner)
    (spread : Spread all limit opening.stop stop shapes rest) (last : stop = closing.stop) :
    Placed all limit before (opening.upTo closing)
      (.node ⟨slot, form, opening.upTo closing⟩ shapes) rest := by
  subst last
  refine .of_laid lead.before rfl ⟨lt_of_lt_of_le lead.nonempty spread.le, spread.row.mono ?_ ?_⟩
    lead.starts (.plain plain lead.starts spread.anchored) spread.ahead
  · have nonempty := lead.nonempty
    unfold Label.inside Loc.upTo
    dsimp only
    split <;> omega
  · have notBlock : form ≠ .block := by
      rintro rfl
      cases plain
    simp [Label.ending, notBlock, Loc.upTo]

/-- A node that starts with its first part. -/
theorem placed_parts {form : Form} {before : Nat} {opening closing : Loc} {shape : Tree Label}
    {others : List (Tree Label)} {stop : Nat} {between : List Token} (plain : form.leads = false)
    (other : form.isPlain = true) (head : Placed all limit before opening shape between)
    (tail : Spread all limit opening.stop stop others rest) (last : stop = closing.stop) :
    Placed all limit before (opening.upTo closing)
      (.node ⟨slot, form, opening.upTo closing⟩ (shape :: others)) rest := by
  subst last
  have row : LaidAll opening.start closing.stop (shape :: others) :=
    ⟨head.inside, head.laid, tail.row.mono head.last (Nat.le_refl _)⟩
  exact .of_laid head.first rfl
    (Laid.node row plain (Nat.le_refl _) (Nat.le_refl _) (lt_of_lt_of_le head.nonempty tail.le))
    head.starts (.plain other head.starts (.cons head.anchored tail.anchored)) tail.ahead

theorem spread_names {tokens rest : List Token} {start : Nat} : ∀ {names : List Ident},
    namesSpell names tokens rest → Ahead all limit start tokens →
    ∃ stop, Spread all limit start stop (params names) rest
  | [], spelled, ahead => by
      obtain rfl : tokens = rest := spelled
      exact ⟨start, .none ahead⟩
  | [x], spelled, ahead => by
      obtain rfl : tokens = _ := spelled
      exact ⟨_, (placed_ident ahead).spread⟩
  | x :: y :: more, spelled, ahead => by
      obtain ⟨comma, between, rfl, othersSpelled⟩ := spelled
      have name : Placed all limit start x.loc (ident .parameter x) _ := placed_ident ahead
      obtain ⟨stop, others⟩ := spread_names othersSpelled name.spread.token.ahead
      exact ⟨stop, name.spread.token.append others⟩

theorem placed_target {target : ForTarget} {tokens : List Token}
    (spelled : targetSpells target tokens rest) (ahead : Ahead all limit start tokens) :
    ∃ stop, Spread all limit start stop [forTarget target] rest := by
  cases target with
  | declared loc kind x =>
      obtain ⟨first, rfl, rfl⟩ := spelled
      have name : Placed all limit _ x.loc (ident .declared x) rest :=
        placed_ident ahead.opens.later
      have item : Placed all limit _ x.loc (.node ⟨.plain, .declarator, x.loc⟩ _) rest :=
        placed_parts rfl rfl name (.none name.ahead) rfl
      exact ⟨_, (placed_after rfl ahead.opens item.spread rfl).spread⟩
  | existing x =>
      obtain rfl : tokens = _ := spelled
      exact ⟨_, (placed_ident ahead).spread⟩

theorem spread_label {label : Option Ident} {tokens : List Token}
    (spelled : labelSpells label tokens rest) (ahead : Ahead all limit start tokens) :
    ∃ stop, Spread all limit start stop (labelOption label) rest := by
  cases label with
  | none =>
      obtain rfl : tokens = rest := spelled
      exact ⟨start, .none ahead⟩
  | some x =>
      obtain rfl : tokens = _ := spelled
      exact ⟨_, (placed_ident ahead).spread⟩

mutual

theorem placed_expr (slot : Slot) {tokens rest : List Token} {start : Nat} : ∀ {value : Expr},
    value.Spells tokens rest → Ahead all limit start tokens →
    Placed all limit start value.loc (value.shape slot) rest
  | .name x, spelled, ahead => by
      obtain rfl : tokens = _ := spelled
      exact placed_ident ahead
  | .number loc text, spelled, ahead => by
      obtain rfl : tokens = _ := spelled
      exact placed_token rfl (.of_literal rfl ahead.mem) ahead
  | .string loc text, spelled, ahead => by
      obtain rfl : tokens = _ := spelled
      exact placed_token rfl (.of_literal rfl ahead.mem) ahead
  | .constant loc value, spelled, ahead => by
      obtain rfl : tokens = _ := spelled
      cases value with
      | this => exact placed_token rfl (.plain rfl ahead.opens.starts) ahead
      | _ => exact placed_token rfl (.of_literal rfl ahead.mem) ahead
  | .array loc items, spelled, ahead => by
      obtain ⟨first, last, inner, rfl, itemsSpelled, rfl⟩ := spelled
      have lead := ahead.opens
      obtain ⟨stop, row⟩ := spread_exprs itemsSpelled lead.later
      exact placed_after rfl lead row.token rfl
  | .function loc params body, spelled, ahead => by
      obtain ⟨first, opened, closed, inner, after, rfl, named, bodySpelled, rfl⟩ := spelled
      have lead := ahead.opens
      have opening := (Spread.none lead.later).token
      obtain ⟨stop, names⟩ := spread_names named opening.ahead
      have head := (opening.append names).token
      have inner := placed_block .functionBody bodySpelled head.ahead
      exact placed_after rfl lead (head.append inner.spread) rfl
  | .group loc inner, spelled, ahead => by
      obtain ⟨first, last, between, rfl, innerSpelled, rfl⟩ := spelled
      have lead := ahead.opens
      have part := placed_expr slot innerSpelled lead.later
      have close := part.ahead.opens
      refine ⟨lead.before, ?_, part.laid, ?_, lead.starts, part.anchored, close.later⟩
      · exact lead.nonempty.le.trans (part.first.trans part.inside)
      · exact part.last.trans (close.before.trans close.nonempty.le)
  | .arrow loc head body, spelled, ahead => by
      obtain ⟨opening, arrow, after, headSpelled, bodySpelled, rfl⟩ := spelled
      obtain ⟨before, starts, stop, opened, names⟩ := spread_arrowHead headSpelled ahead
      have part := placed_arrowBody bodySpelled names.token.ahead
      have row := names.token.append part.spread
      have nonempty : opening.start < body.loc.stop :=
        lt_of_lt_of_le opened ((Spread.none names.ahead).token.append part.spread).le
      exact .of_laid before rfl (Laid.node row.row rfl (Nat.le_refl _) (Nat.le_refl _) nonempty)
        starts (.plain rfl starts row.anchored) row.ahead
  | .sequence loc left right, spelled, ahead => by
      obtain ⟨comma, between, leftSpelled, rightSpelled, rfl⟩ := spelled
      have first := placed_expr .plain leftSpelled ahead
      have items :
          Spread all limit left.loc.start left.loc.stop (commaItems (left.shape .plain)) _ :=
        ⟨LaidAll.commaItems (.single first.inside first.laid first.last),
          first.anchored.commaItems, first.ahead⟩
      have second := placed_expr .plain rightSpelled items.token.ahead
      have row := items.token.append second.spread
      have nonempty : left.loc.start < right.loc.stop := lt_of_lt_of_le first.nonempty
        ((Spread.none first.ahead).token.append second.spread).le
      exact .of_laid first.first rfl
        (Laid.node row.row rfl (Nat.le_refl _) (Nat.le_refl _) nonempty)
        first.starts (.plain rfl first.starts row.anchored) row.ahead
  | .assign loc op target value, spelled, ahead => by
      obtain ⟨sign, between, targetSpelled, valueSpelled, rfl⟩ := spelled
      have first := placed_expr .plain targetSpelled ahead
      have operator := (Spread.none first.ahead).token
      have second := placed_expr .plain valueSpelled operator.ahead
      exact placed_parts rfl rfl first (operator.append second.spread) rfl
  | .conditional loc test yes no, spelled, ahead => by
      obtain ⟨question, colon, between, after, testSpelled, yesSpelled, noSpelled, rfl⟩ := spelled
      have first := placed_expr .plain testSpelled ahead
      have question := (Spread.none first.ahead).token
      have second := placed_expr .plain yesSpelled question.ahead
      have colon := (question.append second.spread).token
      have third := placed_expr .plain noSpelled colon.ahead
      exact placed_parts rfl rfl first (colon.append third.spread) rfl
  | .operation loc op left right, spelled, ahead => by
      obtain ⟨sign, between, leftSpelled, rightSpelled, rfl⟩ := spelled
      have first := placed_expr .plain leftSpelled ahead
      have operator := (Spread.none first.ahead).token
      have second := placed_expr .plain rightSpelled operator.ahead
      exact placed_parts (by cases op <;> rfl) (by cases op <;> rfl) first
        (operator.append second.spread) rfl
  | .unary loc op operand, spelled, ahead => by
      obtain ⟨sign, between, rfl, operandSpelled, rfl⟩ := spelled
      have lead := ahead.opens
      exact placed_after rfl lead
        (placed_expr .plain operandSpelled lead.later).spread rfl
  | .update loc op true operand, spelled, ahead => by
      obtain ⟨sign, between, rfl, operandSpelled, rfl⟩ := spelled
      have lead := ahead.opens
      exact placed_after rfl lead
        (placed_expr .plain operandSpelled lead.later).spread rfl
  | .update loc op false operand, spelled, ahead => by
      obtain ⟨sign, operandSpelled, rfl⟩ := spelled
      have first := placed_expr .plain operandSpelled ahead
      exact placed_parts rfl rfl first (Spread.none first.ahead).token rfl
  | .call loc callee args, spelled, ahead => by
      obtain ⟨opened, last, between, calleeSpelled, argsSpelled, rfl⟩ := spelled
      have first := placed_expr .plain calleeSpelled ahead
      have opening := (Spread.none first.ahead).token
      obtain ⟨stop, items⟩ := spread_exprs argsSpelled opening.ahead
      exact placed_parts rfl rfl first (opening.append items).token rfl
  | .member loc object property, spelled, ahead => by
      obtain ⟨dot, between, objectSpelled, rfl, rfl⟩ := spelled
      have first := placed_expr .plain objectSpelled ahead
      have dot := (Spread.none first.ahead).token
      have name : Placed all limit _ property.loc (ident .property property) _ :=
        placed_ident dot.ahead
      exact placed_parts rfl rfl first (dot.append name.spread) rfl
  | .index loc object key, spelled, ahead => by
      obtain ⟨opened, last, between, objectSpelled, keySpelled, rfl⟩ := spelled
      have first := placed_expr .plain objectSpelled ahead
      have opening := (Spread.none first.ahead).token
      have second := placed_expr .plain keySpelled opening.ahead
      exact placed_parts rfl rfl first (opening.append second.spread).token rfl

theorem spread_exprs {tokens rest : List Token} {start : Nat} : ∀ {items : List Expr},
    exprsSpell items tokens rest → Ahead all limit start tokens →
    ∃ stop, Spread all limit start stop (exprShapes items) rest
  | [], spelled, ahead => by
      obtain rfl : tokens = rest := spelled
      exact ⟨start, .none ahead⟩
  | first :: more, spelled, ahead => by
      cases more with
      | nil =>
          exact ⟨_, (placed_expr .plain spelled ahead).spread⟩
      | cons second others =>
          obtain ⟨comma, between, firstSpelled, othersSpelled⟩ := spelled
          have part := (placed_expr .plain firstSpelled ahead).spread.token
          obtain ⟨stop, row⟩ := spread_exprs othersSpelled part.ahead
          exact ⟨stop, part.append row⟩

theorem spread_exprOption {tokens rest : List Token} {start : Nat} : ∀ {value : Option Expr},
    exprOptionSpells value tokens rest → Ahead all limit start tokens →
    ∃ stop, Spread all limit start stop (exprOptionShapes value) rest
  | none, spelled, ahead => by
      obtain rfl : tokens = rest := spelled
      exact ⟨start, .none ahead⟩
  | some value, spelled, ahead =>
    ⟨_, (placed_expr .plain spelled ahead).spread⟩

theorem spread_arrowHead {opening : Loc} {tokens rest : List Token} {start : Nat} :
    ∀ {head : ArrowHead}, head.Spells opening tokens rest → Ahead all limit start tokens →
    start ≤ opening.start ∧ StartsAt all opening ∧
      ∃ stop, opening.start < stop ∧ Spread all limit opening.start stop head.shapes rest
  | .empty, spelled, ahead => by
      obtain ⟨closed, rfl⟩ := spelled
      have lead := ahead.opens
      have close := lead.later.opens
      exact ⟨lead.before, lead.starts, _,
        lt_of_lt_of_le lead.nonempty (close.before.trans close.nonempty.le),
        (Spread.none (lead.later.mono lead.nonempty.le)).token⟩
  | .name x, spelled, ahead => by
      obtain ⟨rfl, rfl⟩ := spelled
      have lead := ahead.opens
      have name : Placed all limit x.loc.start x.loc (ident .parameter x) rest :=
        placed_ident ⟨⟨Nat.le_refl _, ahead.ordered.2⟩, ahead.among⟩
      exact ⟨lead.before, lead.starts, _, lead.nonempty, name.spread⟩
  | .group inner, spelled, ahead => by
      obtain ⟨closed, between, rfl, innerSpelled⟩ := spelled
      have lead := ahead.opens
      have part := placed_expr .plain innerSpelled (lead.later.mono lead.nonempty.le)
      have row := part.spread.token
      have more : opening.start < inner.loc.stop := lt_of_le_of_lt part.first part.nonempty
      exact ⟨lead.before, lead.starts, _, lt_of_lt_of_le more (Spread.none part.ahead).token.le,
        (LaidAll.commaItems row.row).inSlot .parameter, row.anchored.commaItems.inSlot .parameter,
        row.ahead⟩

theorem placed_arrowBody {tokens rest : List Token} {start : Nat} : ∀ {body : ArrowBody},
    body.Spells tokens rest → Ahead all limit start tokens →
      Placed all limit start body.loc body.shape rest
  | .block _, spelled, ahead => placed_block .functionBody spelled ahead
  | .expr _, spelled, ahead => placed_expr .plain spelled ahead

theorem placed_block (slot : Slot) {tokens rest : List Token} {start : Nat} : ∀ {body : Block},
    body.Spells tokens rest → Ahead all limit start tokens → Placed all limit start body.loc
      (body.shape slot) rest
  | .mk loc body, spelled, ahead => by
      obtain ⟨first, last, inner, rfl, bodySpelled, rfl⟩ := spelled
      have lead := ahead.opens
      have row := spread_stmts bodySpelled lead.later
      have here : Label.Anchored all ⟨slot, .block, first.upTo last⟩ :=
        ⟨lead.starts, nofun, fun _ => ⟨first, last, ahead.mem, row.ahead.mem, rfl⟩, nofun⟩
      obtain ⟨behind, closing, -, after⟩ := row.ahead.opens
      obtain ⟨before, nonempty, starts, -⟩ := lead
      have inside := row.le
      refine .of_laid before rfl ⟨?_, row.row.mono ?_ ?_⟩ starts (.node here row.anchored) after
      all_goals
        simp only [Label.inside, Form.leads, if_true, Label.ending, Loc.upTo]
        omega

theorem spread_declarators {tokens rest : List Token} {before : Loc} : ∀ {items : List Declarator},
    declaratorsSpell items tokens rest → Ahead all limit before.stop tokens →
    Spread all limit before.stop ((items.getLast?.map Declarator.loc).getD before).stop
      (declaratorShapes items) rest
  | [], spelled, ahead => by
      obtain rfl : tokens = rest := spelled
      exact .none ahead
  | .mk loc x init :: more, spelled, ahead => by
      obtain ⟨between, rfl, tail⟩ := spelled
      have name : Placed all limit _ x.loc (ident .declared x) _ := placed_ident ahead
      cases more with
      | nil =>
          have initSpelled : initSpells x loc init between rest := tail
          exact (placed_declarator initSpelled name).spread
      | cons second others =>
          obtain ⟨comma, after, initSpelled, othersSpelled⟩ := tail
          have first := (placed_declarator initSpelled name).spread.token
          have row := first.append (spread_declarators othersSpelled first.ahead)
          simpa [declaratorShapes, List.getLast?_cons] using row

theorem placed_declarator {x : Ident} {loc : Loc} {tokens rest : List Token} {start : Nat} :
    ∀ {init : Option Expr}, initSpells x loc init tokens rest →
    Placed all limit start x.loc (ident .declared x) tokens →
    Placed all limit start loc
      (.node ⟨.plain, .declarator, loc⟩ (ident .declared x :: exprOptionShapes init)) rest
  | none, spelled, name => by
      obtain ⟨rfl, rfl⟩ := spelled
      exact placed_parts rfl rfl name (.none name.ahead) rfl
  | some value, spelled, name => by
      obtain ⟨sign, between, rfl, valueSpelled, rfl⟩ := spelled
      have sign := (Spread.none name.ahead).token
      have value := placed_expr .plain valueSpelled sign.ahead
      exact placed_parts rfl rfl name (sign.append value.spread) rfl

theorem placed_declaration (slot : Slot) {tokens rest : List Token} {start : Nat} :
    ∀ {item : Declaration}, item.Spells tokens rest → Ahead all limit start tokens →
    Placed all limit start item.loc (item.shape item.loc slot) rest
  | .mk loc kind items, spelled, ahead => by
      obtain ⟨first, between, rfl, itemsSpelled, rfl⟩ := spelled
      have lead := ahead.opens
      exact placed_after rfl lead (spread_declarators itemsSpelled lead.later) rfl

theorem spread_forInit {tokens rest : List Token} {start : Nat} : ∀ {init : Option ForInit},
    forInitSpells init tokens rest → Ahead all limit start tokens →
    ∃ stop, Spread all limit start stop (forInitShapes init) rest
  | none, spelled, ahead => by
      obtain rfl : tokens = rest := spelled
      exact ⟨start, .none ahead⟩
  | some (.declaration item), spelled, ahead =>
    ⟨_, (placed_declaration .plain spelled ahead).spread⟩
  | some (.expr value), spelled, ahead =>
    ⟨_, (placed_expr .plain spelled ahead).spread⟩

theorem spread_handler {tokens rest : List Token} {before : Loc} : ∀ {handler : Option CatchClause},
    handlerSpells handler tokens rest → Ahead all limit before.stop tokens →
    Spread all limit before.stop ((handler.map CatchClause.loc).getD before).stop
      (handlerShapes handler) rest
  | none, spelled, ahead => by
      obtain rfl : tokens = rest := spelled
      exact .none ahead
  | some (.mk loc param body), spelled, ahead => by
      obtain ⟨first, opened, closed, after, rfl, bodySpelled, rfl⟩ := spelled
      have lead := ahead.opens
      have opening := (Spread.none lead.later).token
      have name : Placed all limit _ param.loc (ident .caught param) _ :=
        placed_ident opening.ahead
      have head := (opening.append name.spread).token
      have part := placed_block .plain bodySpelled head.ahead
      exact (placed_after rfl lead (head.append part.spread) rfl).spread

theorem spread_finalizer {tokens rest : List Token} {before : Loc} : ∀ {finalizer : Option Block},
    finalizerSpells finalizer tokens rest → Ahead all limit before.stop tokens →
    Spread all limit before.stop ((finalizer.map Block.loc).getD before).stop
      (blockOptionShapes finalizer)
      rest
  | none, spelled, ahead => by
      obtain rfl : tokens = rest := spelled
      exact .none ahead
  | some body, spelled, ahead => by
      obtain ⟨word, between, rfl, bodySpelled⟩ := spelled
      have word := (Spread.none ahead).token
      exact word.append (placed_block .plain bodySpelled word.ahead).spread

theorem spread_cases {tokens rest : List Token} {start : Nat} : ∀ {items : List Case},
    casesSpell items tokens rest → Ahead all limit start tokens →
    ∃ stop, Spread all limit start stop (caseShapes items) rest
  | [], spelled, ahead => by
      obtain rfl : tokens = rest := spelled
      exact ⟨start, .none ahead⟩
  | .mk loc test body :: more, spelled, ahead => by
      obtain ⟨first, colon, between, after, testSpelled, bodySpelled, moreSpelled, rfl⟩ := spelled
      obtain ⟨between, lead, stop, head⟩ := spread_test testSpelled ahead
      have row := head.token.append (spread_stmts bodySpelled head.token.ahead)
      have part : Placed all limit start _ (.node ⟨.plain, .case, _⟩ _) after :=
        placed_after rfl lead row rfl
      have part := part.spread
      obtain ⟨stop, others⟩ := spread_cases moreSpelled part.ahead
      exact ⟨stop, part.append others⟩

theorem spread_test {first : Loc} {tokens rest : List Token} {start : Nat} : ∀ {test : Option Expr},
    testSpells first test tokens rest → Ahead all limit start tokens →
    ∃ inner, Opens all limit start first inner ∧
      ∃ stop, Spread all limit first.stop stop (exprOptionShapes test) rest
  | none, spelled, ahead => by
      obtain rfl : tokens = _ := spelled
      exact ⟨_, ahead.opens, _, .none ahead.opens.later⟩
  | some test, spelled, ahead => by
      obtain ⟨between, rfl, testSpelled⟩ := spelled
      exact ⟨_, ahead.opens, _, (placed_expr .plain testSpelled ahead.opens.later).spread⟩

theorem placed_stmt (slot : Slot) {tokens rest : List Token} {start : Nat} : ∀ {body : Stmt},
    body.Spells tokens rest → Ahead all limit start tokens → Placed all limit start body.loc
      (body.shape slot) rest
  | .declaration loc (.mk inner kind items), spelled, ahead => by
      obtain ⟨last, ⟨first, between, rfl, itemsSpelled, rfl⟩, rfl⟩ := spelled
      have lead := ahead.opens
      have placed : Placed all limit start (first.upTo last)
          (.node ⟨slot, .declaration kind, first.upTo last⟩ (declaratorShapes items)) rest :=
        placed_after rfl lead (spread_declarators itemsSpelled lead.later).token rfl
      exact placed
  | .function loc name params body, spelled, ahead => by
      obtain ⟨first, opened, closed, inner, after, rfl, named, bodySpelled, rfl⟩ := spelled
      have lead := ahead.opens
      have own : Placed all limit _ name.loc (ident .functionName name) _ := placed_ident lead.later
      have opening := own.spread.token
      obtain ⟨stop, names⟩ := spread_names named opening.ahead
      have head := (opening.append names).token
      have part := placed_block .functionBody bodySpelled head.ahead
      have row := head.append part.spread
      rw [List.append_assoc] at row
      exact placed_after rfl lead row rfl
  | .block body, spelled, ahead => placed_block slot spelled ahead
  | .ifElse loc test yes no, spelled, ahead => by
      obtain ⟨first, opened, closed, inner, after, between, rfl, testSpelled, yesSpelled, noSpelled,
        rfl⟩ := spelled
      have lead := ahead.opens
      have opening := (Spread.none lead.later).token
      have head := (opening.append (placed_expr .plain testSpelled opening.ahead).spread).token
      have yesPart := placed_stmt .plain yesSpelled head.ahead
      have row := head.append yesPart.spread
      exact placed_after rfl lead (row.append
        (spread_else noSpelled row.ahead)) rfl
  | .forLoop loc init test update body, spelled, ahead => by
      obtain ⟨first, opened, one, two, closed, begin, middle, last, after, rfl, initSpelled,
        testSpelled, updateSpelled, bodySpelled, rfl⟩ := spelled
      have lead := ahead.opens
      have opening := (Spread.none lead.later).token
      obtain ⟨initStop, initRow⟩ := spread_forInit initSpelled opening.ahead
      have head := (opening.append initRow).token
      obtain ⟨testStop, testRow⟩ := spread_exprOption testSpelled head.ahead
      have head := (head.append testRow).token
      obtain ⟨updateStop, updateRow⟩ := spread_exprOption updateSpelled head.ahead
      have head := (head.append updateRow).token
      have part := placed_stmt .loopBody bodySpelled head.ahead
      exact placed_after rfl lead (head.append part.spread) rfl
  | .forEach loc kind target subject body, spelled, ahead => by
      obtain ⟨first, opened, word, closed, begin, middle, after, rfl, targetSpelled, subjectSpelled,
        bodySpelled, rfl⟩ := spelled
      have lead := ahead.opens
      have opening := (Spread.none lead.later).token
      obtain ⟨stop, left⟩ := placed_target targetSpelled opening.ahead
      have head := (opening.append left).token
      have head := (head.append (placed_expr .plain subjectSpelled head.ahead).spread).token
      have part := placed_stmt .loopBody bodySpelled head.ahead
      exact placed_after rfl lead (head.append part.spread) rfl
  | .whileLoop loc test body, spelled, ahead => by
      obtain ⟨first, opened, closed, inner, after, rfl, testSpelled, bodySpelled, rfl⟩ := spelled
      have lead := ahead.opens
      have opening := (Spread.none lead.later).token
      have head := (opening.append (placed_expr .plain testSpelled opening.ahead).spread).token
      have part := placed_stmt .loopBody bodySpelled head.ahead
      exact placed_after rfl lead (head.append part.spread) rfl
  | .doWhile loc body test, spelled, ahead => by
      obtain ⟨first, word, opened, closed, last, inner, after, rfl, bodySpelled, testSpelled,
        rfl⟩ :=
        spelled
      have lead := ahead.opens
      have head := (placed_stmt .loopBody bodySpelled lead.later).spread.token.token
      have row := head.append (placed_expr .plain testSpelled head.ahead).spread
      exact placed_after rfl lead row.token.token rfl
  | .returns loc value, spelled, ahead => by
      obtain ⟨first, last, inner, rfl, valueSpelled, rfl⟩ := spelled
      have lead := ahead.opens
      obtain ⟨stop, row⟩ := spread_exprOption valueSpelled lead.later
      exact placed_after rfl lead row.token rfl
  | .breaks loc label, spelled, ahead => by
      obtain ⟨first, last, inner, rfl, labelSpelled, rfl⟩ := spelled
      have lead := ahead.opens
      obtain ⟨stop, row⟩ := spread_label labelSpelled lead.later
      exact placed_after rfl lead row.token rfl
  | .continues loc label, spelled, ahead => by
      obtain ⟨first, last, inner, rfl, labelSpelled, rfl⟩ := spelled
      have lead := ahead.opens
      obtain ⟨stop, row⟩ := spread_label labelSpelled lead.later
      exact placed_after rfl lead row.token rfl
  | .throws loc value, spelled, ahead => by
      obtain ⟨first, last, inner, rfl, valueSpelled, rfl⟩ := spelled
      have lead := ahead.opens
      exact placed_after rfl lead
        (placed_expr .plain valueSpelled lead.later).spread.token rfl
  | .tryCatch loc body handler finalizer, spelled, ahead => by
      obtain ⟨first, inner, between, after, rfl, bodySpelled, handlerSpelled, finalizerSpelled,
        rfl⟩ := spelled
      have lead := ahead.opens
      have part := placed_block .plain bodySpelled lead.later
      have handled := spread_handler handlerSpelled part.ahead
      have finished := spread_finalizer finalizerSpelled handled.ahead
      exact placed_after rfl lead (part.spread.append
        (handled.append finished)) rfl
  | .switch loc subject items, spelled, ahead => by
      obtain ⟨first, opened, closed, brace, last, inner, after, rfl, subjectSpelled, casesSpelled,
        rfl⟩ := spelled
      have lead := ahead.opens
      have opening := (Spread.none lead.later).token
      have head := (opening.append
        (placed_expr .plain subjectSpelled opening.ahead).spread).token.token
      obtain ⟨stop, row⟩ := spread_cases casesSpelled head.ahead
      exact placed_after rfl lead (head.append row).token rfl
  | .labeled loc label body, spelled, ahead => by
      obtain ⟨colon, after, rfl, bodySpelled, rfl⟩ := spelled
      have name : Placed all limit _ label.loc (ident .label label) _ := placed_ident ahead
      have colon := (Spread.none name.ahead).token
      have part := placed_stmt .plain bodySpelled colon.ahead
      exact placed_parts rfl rfl name (colon.append part.spread) rfl
  | .expr loc value, spelled, ahead => by
      obtain ⟨last, valueSpelled, rfl⟩ := spelled
      have part := placed_expr .plain valueSpelled ahead
      exact placed_parts rfl rfl part (Spread.none part.ahead).token rfl
  | .empty loc, spelled, ahead => by
      obtain rfl : tokens = _ := spelled
      exact placed_token rfl (.plain rfl ahead.opens.starts) ahead

theorem spread_else {tokens rest : List Token} {before : Loc} : ∀ {no : Option Stmt},
    elseSpells no tokens rest → Ahead all limit before.stop tokens →
    Spread all limit before.stop ((no.map Stmt.loc).getD before).stop (stmtOptionShapes no) rest
  | none, spelled, ahead => by
      obtain rfl : tokens = rest := spelled
      exact .none ahead
  | some body, spelled, ahead => by
      obtain ⟨word, between, rfl, bodySpelled⟩ := spelled
      have word := (Spread.none ahead).token
      exact word.append (placed_stmt .plain bodySpelled word.ahead).spread

theorem spread_stmts {tokens rest : List Token} {before : Loc} : ∀ {body : List Stmt},
    stmtsSpell body tokens rest → Ahead all limit before.stop tokens →
    Spread all limit before.stop ((body.getLast?.map Stmt.loc).getD before).stop (stmtShapes body)
      rest
  | [], spelled, ahead => by
      obtain rfl : tokens = rest := spelled
      exact .none ahead
  | first :: more, spelled, ahead => by
      obtain ⟨between, firstSpelled, moreSpelled⟩ := spelled
      have part := (placed_stmt .plain firstSpelled ahead).spread
      have row := part.append (spread_stmts moreSpelled part.ahead)
      rw [List.getLast?_cons]
      cases last : more.getLast? with
      | none => simpa [stmtShapes, last] using row
      | some found => simpa [stmtShapes, last] using row

end

end Concrete

end LoopCapture
