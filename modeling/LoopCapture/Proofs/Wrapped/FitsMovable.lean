import LoopCapture.Proofs.Wrapped.Movable

/-!
# Programs that fit

A program fits if its chosen loops can be moved, or if it has nothing that belongs to blocks. The
proof goes along the syntax. What it carries down is `Ready`: no identifier is called `this`, the
chosen loops can be moved, and what the position forbids does not occur.
-/

set_option autoImplicit false

namespace LoopCapture

/-- Whether a node is a list of statements other than the body of a function: a block or a case. -/
def Label.isNested (label : Label) : Bool :=
  match label.form with
  | .block => label.slot != .functionBody
  | .case => true
  | _ => false

def Form.isBlockScoped : Form → Bool
  | .declaration kind => kind.isBlockScoped
  | _ => false

namespace Outline

/-- A shape whose root declares nothing that belongs to a block: neither block scoped variables nor,
if it is a nested list of statements, functions. -/
def Plain (part : Tree Label) : Prop :=
  part.label.form.isBlockScoped = false ∧
    (part.label.isNested = true → ∀ child ∈ part.children, child.label.form ≠ .function .declaration)

instance (part : Tree Label) : Decidable (Plain part) :=
  inferInstanceAs (Decidable (_ ∧ _))

/-- Some shapes are plain all the way down. -/
def PlainAll (trees : List (Tree Label)) : Prop :=
  ∀ part ∈ Tree.subtreesAll trees, Plain part

theorem PlainAll.append {trees rest : List (Tree Label)} (plain : PlainAll (trees ++ rest)) :
    PlainAll trees ∧ PlainAll rest := by
  rw [PlainAll, subtreesAll_append, List.forall_mem_append] at plain
  exact plain

theorem PlainAll.node {label : Label} {children : List (Tree Label)}
    (plain : PlainAll [.node label children]) : Plain (.node label children) ∧ PlainAll children := by
  rw [PlainAll, Tree.subtreesAll, Tree.subtrees, List.forall_mem_append, List.forall_mem_cons] at plain
  exact plain.1

/-- A statement whose shape declares no function is none that does. -/
theorem isFunction_of_form {slot : Slot} {body : Stmt}
    (form : (stmt slot body).label.form ≠ .function .declaration) : body.isFunction = false := by
  cases body with
  | function loc name names body => exact absurd rfl form
  | _ => rfl

theorem mem_stmts {first : Stmt} {body : List Stmt} (inside : first ∈ body) :
    stmt .plain first ∈ stmts body := by
  induction body with
  | nil => cases inside
  | cons other rest restIH =>
      rw [stmts]
      rcases List.mem_cons.mp inside with rfl | inRest
      · exact List.mem_cons_self
      · exact List.mem_cons_of_mem _ (restIH inRest)

end Outline

open Outline

/-- Some shapes, with the names that they declare for the function around them, are what a position
asks for. -/
structure Ready (diff : Difference) (position : Position) (trees : List (Tree Label))
    (hoisted : List String) : Prop where
  named : "this" ∉ namesAll trees
  movable : Movables diff.chosen trees
  arguments : position.arguments = false → NoArguments trees ∧ "arguments" ∉ hoisted
  returns : position.returns = false → ∃ targets, Free targets trees
  plain : diff = .scoping → PlainAll trees

namespace Ready

variable {diff : Difference} {position : Position}
variable {hoisted : List String} {label : Label}

theorem append {trees rest : List (Tree Label)} {first second : List String}
    (ready : Ready diff position (trees ++ rest) (first ++ second)) :
    Ready diff position trees first ∧ Ready diff position rest second := by
  obtain ⟨named, movable, arguments, returns, plain⟩ := ready
  simp only [namesAll_append, List.mem_append, not_or] at named arguments
  refine ⟨⟨named.1, movable.append.1, fun none => ?_, fun none => ?_, fun is => (plain is).append.1⟩,
    named.2, movable.append.2, fun none => ?_, fun none => ?_, fun is => (plain is).append.2⟩
  · exact ⟨(arguments none).1.append.1, (arguments none).2.1⟩
  · exact (returns none).imp fun _ clear => clear.append.1
  · exact ⟨(arguments none).1.append.2, (arguments none).2.2⟩
  · exact (returns none).imp fun _ clear => clear.append.2

theorem cons {tree : Tree Label} {rest : List (Tree Label)} {first second : List String}
    (ready : Ready diff position (tree :: rest) (first ++ second)) :
    Ready diff position [tree] first ∧ Ready diff position rest second :=
  append ready

theorem parts {tree : Tree Label} {rest : List (Tree Label)}
    (ready : Ready diff position (tree :: rest) []) :
    Ready diff position [tree] [] ∧ Ready diff position rest [] := by
  rw [← List.append_nil ([] : List String)] at ready
  exact ready.cons

theorem children {children : List (Tree Label)}
    (ready : Ready diff position [.node label children] hoisted)
    (noFunction : label.form.isFunction = false) : Ready diff position children hoisted := by
  obtain ⟨named, movable, arguments, returns, plain⟩ := ready
  refine ⟨fun inside => named ?_, movable.children, fun none => ?_, fun none => ?_, fun is =>
    (plain is).node.2⟩
  · simp [inside]
  · exact ⟨(arguments none).1.children (.inl noFunction), (arguments none).2⟩
  · obtain ⟨targets, clear⟩ := returns none
    exact ⟨_, (clear.node noFunction).2.2⟩

/-- Inside a function of its own kind, `arguments` and `return` are free to use. -/
theorem inFunction {children : List (Tree Label)}
    (ready : Ready diff position [.node label children] hoisted) (inner : List String) :
    Ready diff (.inFunction true) children inner :=
  ⟨fun inside => ready.named (by simp [inside]), ready.movable.children, nofun, nofun,
    fun is => (ready.plain is).node.2⟩

theorem asExpr {trees : List (Tree Label)} (ready : Ready diff position trees hoisted) :
    Ready diff (.inFunction position.arguments) trees [] :=
  ⟨ready.named, ready.movable, fun none => ⟨(ready.arguments none).1, List.not_mem_nil⟩, nofun,
    ready.plain⟩

/-! ## Names -/

theorem declarable {slot : Slot} {x : Ident}
    (ready : Ready diff position [Outline.ident slot x] hoisted) : x.Declarable := by
  intro same
  apply ready.named
  simp [same]

theorem usable {x : Ident} (ready : Ready diff position [Outline.ident .plain x] hoisted) :
    x.Usable position.arguments :=
  ⟨ready.declarable, fun none => (ready.arguments none).1.ident⟩

theorem params {names : List Ident} (ready : Ready diff position (Outline.params names) hoisted) :
    ∀ x ∈ names, x.Declarable := by
  intro x member same
  apply ready.named
  rw [namesAll_params, ← same]
  exact List.mem_map_of_mem member

/-! ## Loops -/

/-- The body of a loop, with what is asked of it if the loop is chosen. -/
theorem body {before after : List (Tree Label)} {inner : Stmt} {first second : List String}
    (ready : Ready diff position [.node label (before ++ stmt .loopBody inner :: after)]
      (first ++ (inner.hoisted diff.rule ++ second))) (isLoop : label.form.isLoop = true)
    (header : ∀ tree ∈ before, tree.label.slot = .plain) :
    Ready diff (if diff.chosen label.loc then .wrapped else position) [stmt .loopBody inner]
        (inner.hoisted diff.rule) ∧
      (diff.chosen label.loc = true → diff.Moves inner) := by
  have plain : label.form.isFunction = false := by
    cases form : label.form with
    | loop kind => rfl
    | _ => simp [form, Form.isLoop] at isLoop
  have inside := (ready.children plain).append.2.cons.1
  cases picked : diff.chosen label.loc with
  | false => exact ⟨inside, nofun⟩
  | true =>
      obtain ⟨braces, clear⟩ := ready.movable.body isLoop header picked
      have rule := Difference.rule_of_chosen picked
      have hoisted := hoisted_of_free clear
      refine ⟨⟨inside.named, inside.movable, fun _ => ?_, fun _ => ⟨_, clear⟩, inside.plain⟩,
        fun _ => ⟨rule, braces, hoisted⟩⟩
      exact ⟨clear.noArguments, by simp [rule, hoisted]⟩

/-! ## Syntax -/

/-- The names that declarators declare for the function around them. -/
def hoistedDeclarators (inBlock : Bool) (items : List Declarator) : List String :=
  if inBlock then [] else items.map (·.ident.name)

theorem hoistedDeclarators_cons (inBlock : Bool) (item : Declarator) (rest : List Declarator) :
    hoistedDeclarators inBlock (item :: rest) =
      hoistedDeclarators inBlock [item] ++ hoistedDeclarators inBlock rest := by
  cases inBlock <;> rfl

theorem declared {slot : Slot} {x : Ident} {inBlock : Bool}
    (ready : Ready diff position [Outline.ident slot x] hoisted)
    (listed : inBlock = false → x.name ∈ hoisted) : x.Usable (inBlock || position.arguments) := by
  refine ⟨ready.declarable, fun none same => ?_⟩
  obtain ⟨notBlock, noArguments⟩ := Bool.or_eq_false_iff.mp none
  exact (ready.arguments noArguments).2 (same ▸ listed notBlock)

theorem allows {children : List (Tree Label)} {kind : DeclKind}
    (ready : Ready diff position [.node label children] hoisted)
    (form : label.form = .declaration kind) : diff.Allows kind := by
  intro isScoping
  have isBlock : label.form.isBlockScoped = false := (ready.plain isScoping).node.1.1
  rwa [form] at isBlock

theorem forTarget {target : ForTarget}
    (ready : Ready diff position [Outline.forTarget target] (target.hoisted diff.rule)) :
    target.ident.Usable (target.blockIdent?.isSome || position.arguments) ∧
      (diff = .scoping → target.blockIdent? = none) := by
  cases target with
  | declared loc kind x =>
      rw [Outline.forTarget, ForTarget.hoisted] at ready
      have allowed : diff.Allows kind := ready.allows rfl
      rw [allowed.inBlock] at ready
      have identReady := (ready.children rfl).children rfl
      cases isBlock : kind.isBlockScoped with
      | false =>
          simp only [ForTarget.blockIdent?, isBlock] at identReady ⊢
          exact ⟨identReady.declared fun _ => List.mem_singleton_self _, fun _ => rfl⟩
      | true =>
          simp only [ForTarget.blockIdent?, isBlock] at identReady ⊢
          refine ⟨identReady.declared (by simp), fun isScoping => ?_⟩
          cases isBlock.symm.trans (allowed isScoping)
  | existing x => exact ⟨ready.usable, fun _ => rfl⟩

mutual

theorem place {arguments : Bool} : ∀ {target : Place},
    Ready diff (.inFunction arguments) [Outline.place .plain target] [] →
    Fits.place diff arguments target
  | .ident x, ready => by
      rw [Outline.place] at ready
      exact ready.usable
  | .member loc object property, ready => by
      rw [Outline.place] at ready
      have fits := expr (ready.children rfl).parts.1
      exact fits
  | .index loc object key, ready => by
      rw [Outline.place] at ready
      obtain ⟨objectReady, keyReady⟩ := (ready.children rfl).parts
      exact ⟨expr objectReady, expr keyReady⟩

theorem expr {arguments : Bool} : ∀ {value : Expr},
    Ready diff (.inFunction arguments) [Outline.expr .plain value] [] →
    Fits.expr diff arguments value
  | .place target, ready => by
      rw [Outline.expr] at ready
      have fits := place ready
      exact fits
  | .literal loc value spelling, _ => trivial
  | .this loc, _ => trivial
  | .array loc items, ready => by
      rw [Outline.expr] at ready
      have fits := exprs (ready.children rfl)
      exact fits
  | .function loc names body, ready => by
      rw [Outline.expr] at ready
      obtain ⟨namesReady, bodyReady⟩ := (ready.inFunction ([] ++ body.hoisted diff.rule)).append
      exact ⟨namesReady.params, block bodyReady⟩
  | .arrow loc names (.block body), ready => by
      rw [Outline.expr, Outline.arrowBody] at ready
      obtain ⟨namesReady, inner⟩ := (ready.inFunction ([] ++ body.hoisted diff.rule)).append
      refine ⟨namesReady.params, block ⟨inner.named, inner.movable, fun none => ?_, nofun,
        inner.plain⟩⟩
      obtain ⟨around, undeclared⟩ := Bool.or_eq_false_iff.mp none
      obtain ⟨-, notHoisted⟩ := Bool.or_eq_false_iff.mp undeclared
      refine ⟨((ready.arguments around).1.children (.inr rfl)).append.2, ?_⟩
      obtain ⟨place, list⟩ := body
      simpa [Block.hoisted, Block.body] using notHoisted
  | .arrow loc names (.expr value), ready => by
      rw [Outline.expr, Outline.arrowBody] at ready
      obtain ⟨namesReady, inner⟩ := (ready.inFunction ([] ++ [])).append
      refine ⟨namesReady.params, expr ⟨inner.named, inner.movable, fun none => ?_, nofun,
        inner.plain⟩⟩
      obtain ⟨around, -⟩ := Bool.or_eq_false_iff.mp none
      exact ⟨((ready.arguments around).1.children (.inr rfl)).append.2, List.not_mem_nil⟩
  | .call loc callee args, ready => by
      rw [Outline.expr] at ready
      obtain ⟨calleeReady, argsReady⟩ := (ready.children rfl).parts
      exact ⟨expr calleeReady, exprs argsReady⟩
  | .assign loc op target value, ready => by
      rw [Outline.expr] at ready
      obtain ⟨targetReady, valueReady⟩ := (ready.children rfl).parts
      exact ⟨place targetReady, expr valueReady⟩
  | .update loc op before target, ready => by
      rw [Outline.expr] at ready
      have fits := place (ready.children rfl)
      exact fits
  | .binary loc op left right, ready => by
      rw [Outline.expr] at ready
      obtain ⟨leftReady, rightReady⟩ := (ready.children rfl).parts
      exact ⟨expr leftReady, expr rightReady⟩
  | .logical loc op left right, ready => by
      rw [Outline.expr] at ready
      obtain ⟨leftReady, rightReady⟩ := (ready.children rfl).parts
      exact ⟨expr leftReady, expr rightReady⟩
  | .unary loc op operand, ready => by
      rw [Outline.expr] at ready
      have fits := expr (ready.children rfl)
      exact fits
  | .conditional loc test yes no, ready => by
      rw [Outline.expr] at ready
      obtain ⟨testReady, branches⟩ := (ready.children rfl).parts
      obtain ⟨yesReady, noReady⟩ := branches.parts
      exact ⟨expr testReady, expr yesReady, expr noReady⟩
  | .sequence loc items, ready => by
      rw [Outline.expr] at ready
      have fits := exprs (ready.children rfl)
      exact fits

theorem exprs {arguments : Bool} : ∀ {items : List Expr},
    Ready diff (.inFunction arguments) (Outline.exprs items) [] →
    Fits.exprs diff arguments items
  | [], _ => trivial
  | first :: rest, ready => by
      rw [Outline.exprs] at ready
      obtain ⟨firstReady, restReady⟩ := ready.parts
      exact ⟨expr firstReady, exprs restReady⟩

theorem exprOption {arguments : Bool} : ∀ {value : Option Expr},
    Ready diff (.inFunction arguments) (Outline.exprOption value) [] →
    Fits.exprOption diff arguments value
  | none, _ => trivial
  | some value, ready => by
      rw [Outline.exprOption] at ready
      have fits := expr ready
      exact fits

theorem block {position : Position} {slot : Slot} : ∀ {body : Block},
    Ready diff position [Outline.block slot body] (body.hoisted diff.rule) →
    Fits.block diff position body
  | .mk loc body, ready => by
      rw [Outline.block] at ready
      have fits := stmts (ready.children rfl)
      exact fits

theorem nested {position : Position} {slot : Slot} (inside : slot ≠ .functionBody) :
    ∀ {body : Block}, Ready diff position [Outline.block slot body] (body.hoisted diff.rule) →
    Fits.nested diff position body
  | .mk loc body, ready => by
      rw [Outline.block] at ready
      refine ⟨fun isScoping first inBody => ?_, stmts (ready.children rfl)⟩
      refine isFunction_of_form ((ready.plain isScoping).node.1.2 ?_ _ (mem_stmts inBody))
      exact bne_iff_ne.mpr inside

theorem nestedOption {position : Position} : ∀ {body : Option Block},
    Ready diff position (Outline.blockOption body) (hoistedFinalizer diff.rule body) →
    Fits.nestedOption diff position body
  | none, _ => trivial
  | some body, ready => by
      rw [Outline.blockOption] at ready
      have fits := nested (by nofun) ready
      exact fits

theorem declarators {position : Position} {inBlock : Bool} : ∀ {items : List Declarator},
    Ready diff position (Outline.declarators items) (hoistedDeclarators inBlock items) →
    Fits.declarators diff inBlock position.arguments items
  | [], _ => trivial
  | .mk loc x init :: rest, ready => by
      rw [Outline.declarators, hoistedDeclarators_cons] at ready
      obtain ⟨itemReady, restReady⟩ := ready.cons
      have parts := itemReady.children rfl
      rw [← List.append_nil (hoistedDeclarators _ _)] at parts
      obtain ⟨identReady, initReady⟩ := parts.cons
      refine ⟨identReady.declared fun inFunction => ?_, exprOption initReady.asExpr,
        declarators restReady⟩
      simp [hoistedDeclarators, inFunction, Declarator.ident]

theorem declaration {position : Position} {slot : Slot} : ∀ {item : Declaration},
    Ready diff position [Outline.declaration slot item] (item.hoisted diff.rule) →
    Fits.declaration diff position.arguments item
  | .mk loc kind items, ready => by
      rw [Outline.declaration, Declaration.hoisted] at ready
      have allowed : diff.Allows kind := ready.allows rfl
      rw [Declaration.kind, allowed.inBlock] at ready
      exact ⟨allowed, declarators (ready.children rfl)⟩

theorem forInit {position : Position} : ∀ {init : Option ForInit},
    Ready diff position (Outline.forInit init) ((init.map (·.hoisted diff.rule)).getD []) →
    Fits.forInit diff position.arguments init
  | none, _ => trivial
  | some (.declaration item), ready => by
      rw [Outline.forInit] at ready
      have fits := declaration ready
      exact fits
  | some (.expr value), ready => by
      rw [Outline.forInit] at ready
      have fits := expr ready.asExpr
      exact fits

theorem handler {position : Position} : ∀ {clause : Option CatchClause},
    Ready diff position (Outline.handler clause) (hoistedHandler diff.rule clause) →
    Fits.handler diff position clause
  | none, _ => trivial
  | some (.mk loc param body), ready => by
      rw [Outline.handler] at ready
      have inside : Ready diff position _ ([] ++ body.hoisted diff.rule) := ready.children rfl
      exact ⟨inside.cons.1.declarable, nested (by nofun) inside.cons.2⟩

theorem cases {position : Position} : ∀ {items : List Case},
    Ready diff position (Outline.cases items) (hoistedCases diff.rule items) →
    Fits.cases diff position items
  | [], _ => trivial
  | .mk loc test body :: rest, ready => by
      rw [Outline.cases, hoistedCases] at ready
      obtain ⟨itemReady, restReady⟩ := ready.cons
      have parts : Ready diff position _ ([] ++ hoistedNames diff.rule body) := itemReady.children rfl
      obtain ⟨testReady, bodyReady⟩ := parts.append
      refine ⟨exprOption testReady.asExpr, ⟨fun isScoping first inBody => ?_, stmts bodyReady⟩,
        cases restReady⟩
      exact isFunction_of_form ((itemReady.plain isScoping).node.1.2 rfl _
        (List.mem_append_right _ (mem_stmts inBody)))

theorem stmt {position : Position} {slot : Slot} (inside : slot ≠ .functionBody) : ∀ {body : Stmt},
    Ready diff position [Outline.stmt slot body] (body.hoisted diff.rule) →
    Fits.stmt diff position body
  | .declaration item, ready => by
      rw [Outline.stmt] at ready
      have fits := declaration ready
      exact fits
  | .function loc name names body, ready => by
      rw [Outline.stmt] at ready
      obtain ⟨nameReady, others⟩ := (ready.inFunction ([] ++ ([] ++ body.hoisted diff.rule))).cons
      obtain ⟨namesReady, bodyReady⟩ := others.append
      exact ⟨nameReady.declarable, namesReady.params, block bodyReady⟩
  | .block body, ready => by
      rw [Outline.stmt] at ready
      have fits := nested inside ready
      exact fits
  | .expr loc value, ready => by
      rw [Outline.stmt] at ready
      have fits := expr (ready.children rfl).asExpr
      exact fits
  | .empty loc, _ => trivial
  | .ifElse loc test yes no, ready => by
      rw [Outline.stmt, Stmt.hoisted] at ready
      have parts : Ready diff position _
        ([] ++ (yes.hoisted diff.rule ++ hoistedOption diff.rule no)) := ready.children rfl
      obtain ⟨testReady, branches⟩ := parts.cons
      obtain ⟨yesReady, noReady⟩ := branches.cons
      exact ⟨expr testReady.asExpr, stmt (by nofun) yesReady, stmtOption noReady⟩
  | .forLoop loc init test update body, ready => by
      rw [Outline.stmt, Stmt.hoisted, ← List.append_nil (body.hoisted diff.rule)] at ready
      have header : ∀ tree ∈ Outline.forInit init ++ Outline.exprOption test ++
          Outline.exprOption update, tree.label.slot = .plain := by
        simp only [List.mem_append]
        rintro tree ((inside | inside) | inside)
        · exact slot_forInit inside
        · exact slot_exprOption inside
        · exact slot_exprOption inside
      obtain ⟨bodyReady, wrapped⟩ := ready.body rfl header
      obtain ⟨headerReady, -⟩ := (ready.children rfl).append
      rw [List.append_assoc, ← List.append_nil ((init.map _).getD _)] at headerReady
      obtain ⟨initReady, others⟩ := headerReady.append
      rw [← List.append_nil ([] : List String)] at others
      obtain ⟨testReady, updateReady⟩ := others.append
      exact ⟨forInit initReady, exprOption testReady.asExpr, exprOption updateReady.asExpr,
        stmt (by nofun) bodyReady, wrapped⟩
  | .forEach loc kind target subject body, ready => by
      rw [Outline.stmt, Stmt.hoisted, ← List.append_nil (body.hoisted diff.rule)] at ready
      have loop : Ready diff position [.node ⟨slot, .loop (.forEach kind), loc⟩
          ([Outline.forTarget target, Outline.expr .plain subject] ++
            [Outline.stmt .loopBody body])] _ := ready
      obtain ⟨bodyReady, wrapped⟩ := loop.body rfl (by simp [slot_forTarget, slot_expr])
      obtain ⟨targetReady, others⟩ := (ready.children rfl).cons
      have subjectReady := others.asExpr.parts.1
      obtain ⟨usable, plain⟩ := forTarget targetReady
      exact ⟨usable, plain, expr subjectReady, stmt (by nofun) bodyReady, wrapped⟩
  | .whileLoop loc test body, ready => by
      rw [Outline.stmt, Stmt.hoisted, ← List.append_nil (body.hoisted diff.rule)] at ready
      have loop : Ready diff position [.node ⟨slot, .loop .whileLoop, loc⟩
          ([Outline.expr .plain test] ++ [Outline.stmt .loopBody body])]
          ([] ++ (body.hoisted diff.rule ++ [])) := ready
      obtain ⟨bodyReady, wrapped⟩ := loop.body rfl (by simp [slot_expr])
      have testReady := (ready.children rfl).asExpr.parts.1
      exact ⟨expr testReady, stmt (by nofun) bodyReady, wrapped⟩
  | .doWhile loc body test, ready => by
      rw [Outline.stmt, Stmt.hoisted, ← List.append_nil (body.hoisted diff.rule)] at ready
      have loop : Ready diff position [.node ⟨slot, .loop .doWhile, loc⟩
          ([] ++ Outline.stmt .loopBody body :: [Outline.expr .plain test])]
          ([] ++ (body.hoisted diff.rule ++ [])) := ready
      obtain ⟨bodyReady, wrapped⟩ := loop.body rfl nofun
      have testReady := (ready.children rfl).asExpr.parts.2
      exact ⟨stmt (by nofun) bodyReady, wrapped, expr testReady⟩
  | .returns loc value, ready => by
      rw [Outline.stmt] at ready
      refine ⟨?_, exprOption (ready.children rfl).asExpr⟩
      cases allowed : position.returns with
      | true => rfl
      | false =>
          obtain ⟨targets, clear⟩ := ready.returns allowed
          exact absurd rfl (clear.node rfl).1
  | .breaks loc label, _ => trivial
  | .continues loc label, _ => trivial
  | .throws loc value, ready => by
      rw [Outline.stmt] at ready
      have fits := expr (ready.children rfl).asExpr
      exact fits
  | .tryCatch loc body clause finalizer, ready => by
      rw [Outline.stmt, Stmt.hoisted, List.append_assoc] at ready
      obtain ⟨bodyReady, others⟩ := (ready.children rfl).cons
      obtain ⟨clauseReady, finalizerReady⟩ := others.append
      exact ⟨nested (by nofun) bodyReady, handler clauseReady, nestedOption finalizerReady⟩
  | .switch loc subject items, ready => by
      rw [Outline.stmt, Stmt.hoisted] at ready
      have parts : Ready diff position _ ([] ++ hoistedCases diff.rule items) := ready.children rfl
      exact ⟨expr parts.cons.1.asExpr, cases parts.cons.2⟩
  | .labeled loc label body, ready => by
      rw [Outline.stmt, Stmt.hoisted] at ready
      have parts : Ready diff position _ ([] ++ body.hoisted diff.rule) := ready.children rfl
      have fits := stmt (by nofun) parts.cons.2
      exact fits

theorem stmtOption {position : Position} : ∀ {body : Option Stmt},
    Ready diff position (Outline.stmtOption body) (hoistedOption diff.rule body) →
    Fits.stmtOption diff position body
  | none, _ => trivial
  | some body, ready => by
      rw [Outline.stmtOption] at ready
      have fits := stmt (by nofun) ready
      exact fits

theorem stmts {position : Position} : ∀ {body : List Stmt},
    Ready diff position (Outline.stmts body) (hoistedNames diff.rule body) →
    Fits.stmts diff position body
  | [], _ => trivial
  | first :: rest, ready => by
      rw [Outline.stmts, hoistedNames] at ready
      obtain ⟨firstReady, restReady⟩ := ready.cons
      exact ⟨stmt (by nofun) firstReady, stmts restReady⟩

end

end Ready

end LoopCapture
