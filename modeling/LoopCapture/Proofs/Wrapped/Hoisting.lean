import LoopCapture.Proofs.Wrapped.Fits

/-!
# Declarations for the function around

Code that fits declares the same names for the function around it on both sides: a body that is moved
into a function has no `var` declarations, and where only one side has block scopes there are no
others. None of the names is `this`.
-/

set_option autoImplicit false

namespace LoopCapture

variable {diff : Difference}

theorem Stmt.hoisted_wrapped (scoping : Scoping) (loc : Loc) (param : Option Ident) (body : Stmt) :
    (body.wrapped loc param).hoisted scoping = [] := by
  cases body with
  | block inner =>
      obtain ⟨innerLoc, stmts⟩ := inner
      simp [Stmt.wrapped, Stmt.wrapper, Stmt.hoisted, Block.hoisted, hoistedNames]
  | _ => simp [Stmt.wrapped, Stmt.wrapper, Stmt.hoisted]

/-- Names that both sides declare for the function around some code, the second side first. None of
them is `this`. -/
structure SameHoisted (names' names : List String) : Prop where
  same : names' = names
  declarable : ∀ name ∈ names, name ≠ "this"

namespace SameHoisted

theorem nil : SameHoisted [] [] := ⟨rfl, by simp⟩

theorem append {names' names more' more : List String} (first : SameHoisted names' names)
    (second : SameHoisted more' more) : SameHoisted (names' ++ more') (names ++ more) where
  same := by rw [first.same, second.same]
  declarable := List.forall_mem_append.mpr ⟨first.declarable, second.declarable⟩

/-- What a loop body declares, whether the loop is chosen or not. -/
theorem wrappedIf {isChosen : Bool} {body inner : Stmt}
    (hoisted : SameHoisted (inner.hoisted .block) (body.hoisted diff.rule))
    (whole : isChosen = true → diff.Moves body) (loc : Loc) (param : Option Ident) :
    SameHoisted ((inner.wrappedIf isChosen loc param).hoisted .block) (body.hoisted diff.rule) := by
  refine ⟨?_, hoisted.declarable⟩
  cases isChosen with
  | false => exact hoisted.same
  | true =>
      rw [(whole rfl).rule, (whole rfl).hoisted]
      exact Stmt.hoisted_wrapped .block loc param inner

end SameHoisted

namespace WrapLoops

theorem names_declarators {inBlock arguments : Bool} {items : List Declarator}
    (fits : Fits.declarators diff inBlock arguments items) :
    SameHoisted ((declarators diff.chosen items).map (·.ident.name)) (items.map (·.ident.name)) := by
  induction items with
  | nil =>
      simp only [declarators, List.map_nil]
      exact .nil
  | cons item items restIH =>
      obtain ⟨loc, x, init⟩ := item
      obtain ⟨usable, _, rest⟩ := fits
      simp only [declarators, List.map_cons]
      have here : SameHoisted [x.name] [x.name] := ⟨rfl, List.forall_mem_singleton.mpr usable.1⟩
      exact here.append (restIH rest)

theorem hoisted_declaration {arguments : Bool} {item : Declaration}
    (fits : Fits.declaration diff arguments item) :
    SameHoisted ((declaration diff.chosen item).hoisted .block) (item.hoisted diff.rule) := by
  obtain ⟨loc, kind, items⟩ := item
  have names : SameHoisted (declaration diff.chosen (.mk loc kind items)).names
      (Declaration.mk loc kind items).names :=
    names_declarators fits.2
  have same : diff.rule.inBlock kind = kind.isBlockScoped := fits.1.inBlock
  have same' : Scoping.block.inBlock (declaration diff.chosen (.mk loc kind items)).kind =
    kind.isBlockScoped := rfl
  rw [Declaration.hoisted, Declaration.hoisted, same', Declaration.kind, same]
  cases kind.isBlockScoped with
  | true => exact .nil
  | false => exact names

theorem hoisted_forInit {arguments : Bool} : ∀ {init : Option ForInit},
    Fits.forInit diff arguments init →
    SameHoisted (((forInit diff.chosen init).map (·.hoisted .block)).getD [])
      ((init.map (·.hoisted diff.rule)).getD [])
  | none, _ => .nil
  | some (.declaration _), fits => hoisted_declaration fits
  | some (.expr _), _ => .nil

theorem hoisted_target {arguments : Bool} {target : ForTarget}
    (usable : target.ident.Usable arguments) (plain : diff = .scoping → target.blockIdent? = none) :
    SameHoisted (target.hoisted .block) (target.hoisted diff.rule) := by
  cases target with
  | existing x => exact .nil
  | declared loc kind x =>
      have allowed : diff.Allows kind := by
        intro isScoping
        simpa [ForTarget.blockIdent?] using plain isScoping
      rw [ForTarget.hoisted, ForTarget.hoisted, allowed.inBlock]
      refine ⟨rfl, ?_⟩
      split
      · simp
      · exact List.forall_mem_singleton.mpr usable.1

mutual

/-- By induction on the statement: it declares the same names on both sides. -/
theorem hoisted_stmt {position : Position} : ∀ {body : Stmt}, Fits.stmt diff position body →
    SameHoisted ((stmt diff.chosen body).hoisted .block) (body.hoisted diff.rule)
  | .declaration item, fits => by
      have fitsItem : Fits.declaration diff position.arguments item := fits
      simp only [stmt, Stmt.hoisted]
      exact hoisted_declaration fitsItem
  | .block body, fits => by
      simp only [stmt, Stmt.hoisted]
      exact hoisted_block fits
  | .ifElse _ _ _ _, fits => by
      simp only [stmt, Stmt.hoisted]
      exact (hoisted_stmt fits.2.1).append (hoisted_stmtOption fits.2.2)
  | .forLoop loc _ _ _ _, fits => by
      obtain ⟨fitsInit, _, _, fitsBody, whole⟩ := fits
      simp only [stmt, Stmt.hoisted]
      exact (hoisted_forInit fitsInit).append ((hoisted_stmt fitsBody).wrappedIf whole _ _)
  | .forEach _ _ _ _ _, fits => by
      obtain ⟨usable, plain, _, fitsBody, whole⟩ := fits
      simp only [stmt, Stmt.hoisted]
      exact (hoisted_target usable plain).append ((hoisted_stmt fitsBody).wrappedIf whole _ _)
  | .whileLoop _ _ _, fits => by
      obtain ⟨_, fitsBody, whole⟩ := fits
      simp only [stmt, Stmt.hoisted]
      exact (hoisted_stmt fitsBody).wrappedIf whole _ _
  | .doWhile _ _ _, fits => by
      obtain ⟨fitsBody, whole, _⟩ := fits
      simp only [stmt, Stmt.hoisted]
      exact (hoisted_stmt fitsBody).wrappedIf whole _ _
  | .tryCatch _ _ _ _, fits => by
      simp only [stmt, Stmt.hoisted]
      exact ((hoisted_block fits.1).append (hoisted_handler fits.2.1)).append
        (hoisted_blockOption fits.2.2)
  | .switch _ _ _, fits => by
      simp only [stmt, Stmt.hoisted]
      exact hoisted_cases fits.2
  | .labeled _ _ body, fits => by
      have fitsBody : Fits.stmt diff position body := fits
      simp only [stmt, Stmt.hoisted]
      exact hoisted_stmt fitsBody
  | .function .., _ => by simpa only [stmt, Stmt.hoisted] using .nil
  | .expr .., _ => by simpa only [stmt, Stmt.hoisted] using .nil
  | .empty _, _ => by simpa only [stmt, Stmt.hoisted] using .nil
  | .returns .., _ => by simpa only [stmt, Stmt.hoisted] using .nil
  | .breaks .., _ => by simpa only [stmt, Stmt.hoisted] using .nil
  | .continues .., _ => by simpa only [stmt, Stmt.hoisted] using .nil
  | .throws .., _ => by simpa only [stmt, Stmt.hoisted] using .nil

theorem hoisted_stmtOption {position : Position} : ∀ {body : Option Stmt},
    Fits.stmtOption diff position body →
    SameHoisted (hoistedOption .block (stmtOption diff.chosen body)) (hoistedOption diff.rule body)
  | none, _ => .nil
  | some _, fits => by
      simp only [stmtOption, hoistedOption]
      exact hoisted_stmt fits

theorem hoisted_block {position : Position} : ∀ {body : Block}, Fits.nested diff position body →
    SameHoisted ((block diff.chosen body).hoisted .block) (body.hoisted diff.rule)
  | .mk _ _, fits => by
      simp only [block, Block.hoisted]
      exact hoisted_stmts fits.2

theorem hoisted_blockOption {position : Position} : ∀ {body : Option Block},
    Fits.nestedOption diff position body →
    SameHoisted (hoistedFinalizer .block (blockOption diff.chosen body))
      (hoistedFinalizer diff.rule body)
  | none, _ => .nil
  | some _, fits => by
      simp only [blockOption, hoistedFinalizer]
      exact hoisted_block fits

theorem hoisted_handler {position : Position} : ∀ {clause : Option CatchClause},
    Fits.handler diff position clause →
    SameHoisted (hoistedHandler .block (handler diff.chosen clause)) (hoistedHandler diff.rule clause)
  | none, _ => .nil
  | some (.mk _ _ _), fits => by
      simp only [handler, hoistedHandler]
      exact hoisted_block fits.2

theorem hoisted_cases {position : Position} : ∀ {items : List Case},
    Fits.cases diff position items →
    SameHoisted (hoistedCases .block (cases diff.chosen items)) (hoistedCases diff.rule items)
  | [], _ => .nil
  | .mk _ _ _ :: _, fits => by
      simp only [cases, hoistedCases]
      exact (hoisted_stmts fits.2.1.2).append (hoisted_cases fits.2.2)

theorem hoisted_stmts {position : Position} : ∀ {body : List Stmt},
    Fits.stmts diff position body →
    SameHoisted (hoistedNames .block (stmts diff.chosen body)) (hoistedNames diff.rule body)
  | [], _ => .nil
  | _ :: _, fits => by
      simp only [stmts, hoistedNames]
      exact (hoisted_stmt fits.1).append (hoisted_stmts fits.2)

end

end WrapLoops

end LoopCapture
