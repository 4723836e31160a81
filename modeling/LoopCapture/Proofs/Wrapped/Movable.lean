import LoopCapture.Proofs.Concrete.Names
import LoopCapture.Proofs.Outline.Sites
import LoopCapture.Proofs.Wrapped.Fits
import LoopCapture.Wrapping.Obstacle

/-!
# Loop bodies without obstacles fit

The search for obstacles goes over outlines, and `Fits` over syntax trees. A loop body in which the
search finds nothing fits as a wrapped body; so a program fits if this holds of every chosen loop.
What the search finds does not depend on how the nodes are numbered.
-/

set_option autoImplicit false

namespace LoopCapture

/-- A loop whose body is in braces and has no obstacle. -/
def Outline.Movable (loop : Outline) : Prop :=
  ∃ body, loop.loopBody? = some body ∧ body.label.node.form = .block ∧ body.obstacle? = none

instance (loop : Outline) : Decidable loop.Movable :=
  decidable_of_iff
    (loop.loopBody?.any fun body => body.label.node.form = .block && body.obstacle?.isNone) (by
      simp [Outline.Movable, Option.any_eq_true])

namespace Outline

variable {label : Label} {rest trees : List (Tree Label)} {targets : Obstacle.Targets}

theorem isBlock_of_form {slot : Slot} {body : Stmt} (form : (stmt slot body).label.form = .block) :
    body.isBlock = true := by
  cases body with
  | block inner => rfl
  | declaration item =>
      cases item
      simp [stmt, declaration, Tree.label] at form
  | _ => simp [stmt, leaf, Tree.label] at form

/-! ## Shapes under some numbering -/

/-- Some shapes have a property once their nodes have numbers. -/
def Numbered (property : List Outline → Prop) (trees : List (Tree Label)) : Prop :=
  ∃ above free, property (numberAll above free trees).1

theorem Numbered.append {property : List Outline → Prop}
    (splits : ∀ trees rest, property (trees ++ rest) → property trees ∧ property rest)
    (holds : Numbered property (trees ++ rest)) :
    Numbered property trees ∧ Numbered property rest := by
  obtain ⟨above, free, holds⟩ := holds
  rw [numberAll_append] at holds
  obtain ⟨first, second⟩ := splits _ _ holds
  exact ⟨⟨above, free, first⟩, above, _, second⟩

/-- No use of `arguments` is found in some shapes. -/
def NoArguments : List (Tree Label) → Prop :=
  Numbered fun trees => Obstacle.argumentsInAll? trees = none

/-- No obstacle is found in some shapes, given the targets around them. -/
def Free (targets : Obstacle.Targets) : List (Tree Label) → Prop :=
  Numbered fun trees => Obstacle.findIn? targets trees = none

/-- All chosen loops of some shapes can be moved. -/
def Movables (chosen : Loc → Bool) : List (Tree Label) → Prop :=
  Numbered fun trees => ∀ loop ∈ Tree.subtreesAll trees,
    loop.label.node.isLoop = true → chosen loop.label.node.loc = true → Movable loop

theorem argumentsInAll?_append (trees rest : List Outline) :
    Obstacle.argumentsInAll? (trees ++ rest) =
      (Obstacle.argumentsInAll? trees).or (Obstacle.argumentsInAll? rest) := by
  induction trees with
  | nil => rfl
  | cons tree trees ih =>
      simp only [List.cons_append, Obstacle.argumentsInAll?, ih, Option.or_assoc]

theorem findIn?_append (targets : Obstacle.Targets) (trees rest : List Outline) :
    Obstacle.findIn? targets (trees ++ rest) =
      (Obstacle.findIn? targets trees).or (Obstacle.findIn? targets rest) := by
  induction trees with
  | nil => rfl
  | cons tree trees ih =>
      simp only [List.cons_append, Obstacle.findIn?, ih, Option.or_assoc]

theorem subtreesAll_append {α : Type} (trees rest : List (Tree α)) :
    Tree.subtreesAll (trees ++ rest) = Tree.subtreesAll trees ++ Tree.subtreesAll rest := by
  induction trees with
  | nil => rfl
  | cons tree trees ih =>
      simp only [List.cons_append, Tree.subtreesAll, ih, List.append_assoc]

theorem NoArguments.append (clear : NoArguments (trees ++ rest)) :
    NoArguments trees ∧ NoArguments rest :=
  Numbered.append (fun first second found => by
    rwa [argumentsInAll?_append, Option.or_eq_none_iff] at found) clear

theorem Free.append (clear : Free targets (trees ++ rest)) :
    Free targets trees ∧ Free targets rest :=
  Numbered.append (fun first second found => by
    rwa [findIn?_append, Option.or_eq_none_iff] at found) clear

theorem Movables.append {chosen : Loc → Bool} (movable : Movables chosen (trees ++ rest)) :
    Movables chosen trees ∧ Movables chosen rest :=
  Numbered.append (fun first second all => by
    rw [subtreesAll_append] at all
    exact ⟨fun loop inside => all loop (List.mem_append_left _ inside),
      fun loop inside => all loop (List.mem_append_right _ inside)⟩) movable

theorem Free.cons {tree : Tree Label}
    (clear : Free targets (tree :: rest)) : Free targets [tree] ∧ Free targets rest :=
  append clear

/-! ## Nodes -/

theorem NoArguments.children {children : List (Tree Label)}
    (clear : NoArguments [.node label children])
    (shared : label.form.isFunction = false ∨ label.form = .function .arrow) :
    NoArguments children := by
  obtain ⟨above, free, clear⟩ := clear
  refine ⟨{ label with id := free } :: above, free + 1, ?_⟩
  have root : Obstacle.argumentsIn? (.node ⟨{ label with id := free }, above⟩
      (numberAll ({ label with id := free } :: above) (free + 1) children).1) = none :=
    (Option.or_eq_none_iff.mp clear).1
  rw [Obstacle.argumentsIn?] at root
  split at root
  · rename_i known
    have form : label.form = .function _ := known
    simp [form, Form.isFunction] at shared
  · rename_i known
    have form : label.form = .function _ := known
    simp [form, Form.isFunction] at shared
  · split at root
    · cases root
    · exact root

theorem NoArguments.ident {x : Ident} (clear : NoArguments [Outline.ident .plain x]) :
    x.name ≠ "arguments" := by
  rintro same
  obtain ⟨above, free, clear⟩ := clear
  have root : Obstacle.argumentsIn?
      (.node ⟨⟨⟨.plain, .identifier x.name, x.loc⟩, free⟩, above⟩ []) = none :=
    (Option.or_eq_none_iff.mp clear).1
  simp [Obstacle.argumentsIn?, Obstacle.usesArguments, Node.name?, Node.isReference, same] at root

theorem Free.node {children : List (Tree Label)}
    (clear : Free targets [.node label children]) (plain : label.form.isFunction = false) :
    label.form ≠ .returns ∧ label.form ≠ .declaration .var ∧
      Free (targets.under label.form) children := by
  obtain ⟨above, free, clear⟩ := clear
  have root : Obstacle.find? targets (.node ⟨{ label with id := free }, above⟩
      (numberAll ({ label with id := free } :: above) (free + 1) children).1) = none :=
    (Option.or_eq_none_iff.mp clear).1
  rw [Obstacle.find?] at root
  split at root
  · rename_i known
    have form : label.form = .function _ := known
    simp [form, Form.isFunction] at plain
  · rename_i known
    have form : label.form = .function _ := known
    simp [form, Form.isFunction] at plain
  · split at root
    · cases root
    · rename_i harmless
      refine ⟨?_, ?_, { label with id := free } :: above, free + 1, root⟩
      · intro form
        simp [Obstacle.ofNode?, form] at harmless
      · intro form
        simp [Obstacle.ofNode?, form] at harmless

/-- A node that is no obstacle does not use `arguments`. -/
theorem usesArguments_of_harmless {node : Node}
    (harmless : Obstacle.ofNode? targets node = none) : Obstacle.usesArguments node = false := by
  cases form : node.form with
  | identifier name =>
      cases used : Obstacle.usesArguments node with
      | false => rfl
      | true => simp [Obstacle.ofNode?, form, used] at harmless
  | _ => simp [Obstacle.usesArguments, Node.name?, form]

mutual

theorem argumentsIn?_eq_none : ∀ {targets : Obstacle.Targets} {tree : Outline},
    Obstacle.find? targets tree = none → Obstacle.argumentsIn? tree = none
  | targets, .node site children, clear => by
      rw [Obstacle.find?] at clear
      split at clear
      · exact clear
      · rename_i kind other form
        rw [Obstacle.argumentsIn?, form]
        cases kind with
        | arrow => exact absurd rfl other
        | declaration => rfl
        | expression => rfl
      · split at clear
        · cases clear
        · rename_i harmless
          rw [Obstacle.argumentsIn?, usesArguments_of_harmless harmless]
          split
          · rfl
          · rfl
          · exact argumentsInAll?_eq_none clear

theorem argumentsInAll?_eq_none : ∀ {targets : Obstacle.Targets} {trees : List Outline},
    Obstacle.findIn? targets trees = none → Obstacle.argumentsInAll? trees = none
  | _, [], _ => rfl
  | targets, tree :: rest, clear => by
      obtain ⟨first, others⟩ := Option.or_eq_none_iff.mp clear
      exact Option.or_eq_none_iff.mpr ⟨argumentsIn?_eq_none first, argumentsInAll?_eq_none others⟩

end

theorem Free.noArguments (clear : Free targets trees) :
    NoArguments trees := by
  obtain ⟨above, free, clear⟩ := clear
  exact ⟨above, free, argumentsInAll?_eq_none clear⟩

theorem Movables.children {chosen : Loc → Bool} {children : List (Tree Label)}
    (movable : Movables chosen [.node label children]) : Movables chosen children := by
  obtain ⟨above, free, movable⟩ := movable
  refine ⟨{ label with id := free } :: above, free + 1, fun loop inside => movable loop ?_⟩
  exact List.mem_append_left _ (List.mem_cons_of_mem _ inside)

/-- The body of a chosen loop is in braces and free of obstacles. -/
theorem Movables.body {chosen : Loc → Bool} {before after : List (Tree Label)} {body : Stmt}
    (movable : Movables chosen [.node label (before ++ stmt .loopBody body :: after)])
    (isLoop : label.form.isLoop = true) (header : ∀ tree ∈ before, tree.label.slot = .plain)
    (picked : chosen label.loc = true) :
    body.isBlock = true ∧ Free .empty [stmt .loopBody body] := by
  obtain ⟨above, free, movable⟩ := movable
  obtain ⟨found, isBody, form, clear⟩ := movable _ (List.mem_cons_self ..) isLoop picked
  have first := isBody.symm.trans
    (loopBody?_number (slot_stmt .loopBody body) header ⟨{ label with id := free }, above⟩
      ({ label with id := free } :: above) (free + 1) after)
  obtain rfl := Option.some.inj first
  refine ⟨isBlock_of_form ((form_number _ _ _).symm.trans form),
    { label with id := free } :: above,
    (numberAll ({ label with id := free } :: above) (free + 1) before).2, ?_⟩
  exact Option.or_eq_none_iff.mpr ⟨clear, rfl⟩

/-! ## Declarations by `var` -/

theorem hoisted_declaration_of_free {slot : Slot} {item : Declaration}
    (clear : Free targets [declaration slot item]) : item.hoisted .block = [] := by
  obtain ⟨loc, kind, items⟩ := item
  rw [declaration] at clear
  obtain ⟨-, notVar, -⟩ := clear.node rfl
  cases kind with
  | var => exact absurd rfl notVar
  | _ => rfl

mutual

/-- Statements without obstacles declare nothing for the function around them. -/
theorem hoisted_of_free {targets : Obstacle.Targets} {slot : Slot} : ∀ {body : Stmt},
    Free targets [stmt slot body] → body.hoisted .block = []
  | .declaration item, clear => hoisted_declaration_of_free clear
  | .function loc name names body, _ => rfl
  | .block body, clear => by
      rw [Stmt.hoisted]
      exact hoisted_block_of_free clear
  | .expr loc value, _ => rfl
  | .empty loc, _ => rfl
  | .ifElse loc test yes no, clear => by
      rw [stmt] at clear
      obtain ⟨-, branches⟩ := (clear.node rfl).2.2.cons
      obtain ⟨yesClear, noClear⟩ := branches.cons
      rw [Stmt.hoisted, hoisted_of_free yesClear, hoistedOption_of_free noClear, List.append_nil]
  | .forLoop loc init test update body, clear => by
      rw [stmt] at clear
      obtain ⟨header, bodyClear⟩ := (clear.node rfl).2.2.append
      obtain ⟨initClear, -⟩ := header.append.1.append
      rw [Stmt.hoisted, hoisted_of_free bodyClear, List.append_nil]
      cases init with
      | none => rfl
      | some init =>
          cases init with
          | declaration item => exact hoisted_declaration_of_free initClear
          | expr value => rfl
  | .forEach loc kind target subject body, clear => by
      rw [stmt] at clear
      obtain ⟨targetClear, parts⟩ := (clear.node rfl).2.2.cons
      rw [Stmt.hoisted, hoisted_of_free parts.cons.2, List.append_nil]
      cases target with
      | declared place kind x =>
          rw [forTarget] at targetClear
          obtain ⟨-, notVar, -⟩ := targetClear.node rfl
          cases kind with
          | var => exact absurd rfl notVar
          | _ => rfl
      | existing x => rfl
  | .whileLoop loc test body, clear => by
      rw [stmt] at clear
      rw [Stmt.hoisted]
      exact hoisted_of_free (clear.node rfl).2.2.cons.2
  | .doWhile loc body test, clear => by
      rw [stmt] at clear
      rw [Stmt.hoisted]
      exact hoisted_of_free (clear.node rfl).2.2.cons.1
  | .returns loc value, _ => rfl
  | .breaks loc label, _ => rfl
  | .continues loc label, _ => rfl
  | .throws loc value, _ => rfl
  | .tryCatch loc body clause finalizer, clear => by
      rw [stmt] at clear
      obtain ⟨bodyClear, others⟩ := (clear.node rfl).2.2.cons
      obtain ⟨clauseClear, finalizerClear⟩ := others.append
      rw [Stmt.hoisted, hoisted_block_of_free bodyClear, hoistedHandler_of_free clauseClear,
        hoistedFinalizer_of_free finalizerClear]
      rfl
  | .switch loc subject items, clear => by
      rw [stmt] at clear
      rw [Stmt.hoisted]
      exact hoistedCases_of_free (clear.node rfl).2.2.cons.2
  | .labeled loc label body, clear => by
      rw [stmt] at clear
      rw [Stmt.hoisted]
      exact hoisted_of_free (clear.node rfl).2.2.cons.2

theorem hoistedOption_of_free {targets : Obstacle.Targets} : ∀ {body : Option Stmt},
    Free targets (stmtOption body) → hoistedOption .block body = []
  | none, _ => rfl
  | some body, clear => by
      rw [stmtOption] at clear
      exact hoisted_of_free clear

theorem hoisted_block_of_free {targets : Obstacle.Targets} {slot : Slot} : ∀ {body : Block},
    Free targets [block slot body] → body.hoisted .block = []
  | .mk loc body, clear => by
      rw [block] at clear
      exact hoistedNames_of_free (clear.node rfl).2.2

theorem hoistedHandler_of_free {targets : Obstacle.Targets} : ∀ {clause : Option CatchClause},
    Free targets (handler clause) → hoistedHandler .block clause = []
  | none, _ => rfl
  | some (.mk loc param body), clear => by
      rw [handler] at clear
      exact hoisted_block_of_free (clear.node rfl).2.2.cons.2

theorem hoistedFinalizer_of_free {targets : Obstacle.Targets} : ∀ {finalizer : Option Block},
    Free targets (blockOption finalizer) → hoistedFinalizer .block finalizer = []
  | none, _ => rfl
  | some body, clear => by
      rw [blockOption] at clear
      exact hoisted_block_of_free clear

theorem hoistedCases_of_free {targets : Obstacle.Targets} : ∀ {items : List Case},
    Free targets (cases items) → hoistedCases .block items = []
  | [], _ => rfl
  | .mk loc test body :: rest, clear => by
      rw [cases] at clear
      obtain ⟨first, others⟩ := clear.cons
      rw [hoistedCases, hoistedNames_of_free (first.node rfl).2.2.append.2,
        hoistedCases_of_free others]
      rfl

theorem hoistedNames_of_free {targets : Obstacle.Targets} : ∀ {body : List Stmt},
    Free targets (stmts body) → hoistedNames .block body = []
  | [], _ => rfl
  | first :: rest, clear => by
      rw [stmts] at clear
      obtain ⟨firstClear, others⟩ := clear.cons
      rw [hoistedNames, hoisted_of_free firstClear, hoistedNames_of_free others]
      rfl

end

end Outline

end LoopCapture
