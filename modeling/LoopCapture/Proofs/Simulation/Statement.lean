import LoopCapture.Proofs.Simulation.Loop

/-!
# Statements that match

The remaining statements: exceptions, cases, labels, and the rule that joins all of them.
-/

set_option autoImplicit false

namespace LoopCapture

variable {diff : Difference} {side : Side} {returns : Bool} {pairing : Pairing}
  {link : Link} {position : Position} {e e' : FrameId} {value value' : Value}

/-! ## Cases -/

namespace WrapLoops

theorem stmts_append (body rest : List Stmt) :
    stmts diff.chosen (body ++ rest) = stmts diff.chosen body ++ stmts diff.chosen rest := by
  induction body with
  | nil => rfl
  | cons stmt body bodyIH => rw [List.cons_append, stmts, stmts, bodyIH, List.cons_append]

theorem flatMap_cases (items : List Case) :
    (cases diff.chosen items).flatMap Case.body = stmts diff.chosen (items.flatMap Case.body) := by
  induction items with
  | nil => rfl
  | cons item items restIH =>
      obtain ⟨loc, test, body⟩ := item
      rw [cases, List.flatMap_cons, List.flatMap_cons, stmts_append, restIH]
      rfl

theorem dropWhile_cases (items : List Case) :
    (cases diff.chosen items).dropWhile (·.test.isSome) =
      cases diff.chosen (items.dropWhile (·.test.isSome)) := by
  induction items with
  | nil => rfl
  | cons item items restIH =>
      obtain ⟨loc, test, body⟩ := item
      cases test with
      | none => rfl
      | some test => exact restIH

end WrapLoops

namespace Fits

theorem stmts_append {body rest : List Stmt} (fits : stmts diff position body)
    (fitsRest : stmts diff position rest) : stmts diff position (body ++ rest) := by
  induction body with
  | nil => exact fitsRest
  | cons stmt body bodyIH => exact ⟨fits.1, bodyIH fits.2⟩

theorem stmts_flatMap {items : List Case} (fits : cases diff position items) :
    stmts diff position (items.flatMap Case.body) := by
  induction items with
  | nil => exact trivial
  | cons item items restIH =>
      obtain ⟨loc, test, body⟩ := item
      exact stmts_append fits.2.1.2 (restIH fits.2.2)

theorem plain_flatMap {items : List Case} (fits : cases diff position items) :
    diff.Plain (items.flatMap Case.body) := by
  induction items with
  | nil => exact fun _ => nofun
  | cons item items restIH =>
      obtain ⟨loc, test, body⟩ := item
      obtain ⟨_, ⟨plain, _⟩, fitsRest⟩ := fits
      intro isScoping
      rw [List.flatMap_cons, List.forall_mem_append]
      exact ⟨plain isScoping, restIH fitsRest isScoping⟩

theorem dropWhile_cases {items : List Case} (fits : cases diff position items) :
    cases diff position (items.dropWhile (·.test.isSome)) := by
  induction items with
  | nil => exact trivial
  | cons item items restIH =>
      obtain ⟨loc, test, body⟩ := item
      cases test with
      | none => exact fits
      | some test => exact restIH fits.2.2

end Fits

/-- Cases on the first side and their wrapped forms. -/
def CasesMatch (diff : Difference) (position : Position) (_ : Pairing) (items items' : List Case) :
    Prop :=
  Fits.cases diff position items ∧ items' = WrapLoops.cases diff.chosen items

instance : Persistent (CasesMatch diff position) := ⟨fun _ both => both⟩

theorem CasesMatch.selectCases {items found found' : List Case}
    (fits : Fits.cases diff position items) (both : CasesMatch diff position pairing found found') :
    CasesMatch diff position pairing (Exec.selectCases items found)
      (Exec.selectCases (WrapLoops.cases diff.chosen items) found') := by
  obtain ⟨fitsFound, rfl⟩ := both
  cases found with
  | nil => exact ⟨Fits.dropWhile_cases fits, WrapLoops.dropWhile_cases items⟩
  | cons item rest =>
      obtain ⟨loc, test, body⟩ := item
      exact ⟨fitsFound, rfl⟩

namespace Simulates

variable {perform perform' : Performer} (sim : Simulates diff side perform perform')
  (standing : Standing link position.arguments pairing e e')

include sim standing

theorem matchingCases {items : List Case} (fits : Fits.cases diff position items)
    (values : ValueMatch diff pairing value value') :
    ExecMatch diff side returns (CasesMatch diff position) pairing
      (Exec.matchingCases perform e value items)
      (Exec.matchingCases perform' e' value' (WrapLoops.cases diff.chosen items)) := by
  induction items generalizing pairing with
  | nil => exact .pure ⟨trivial, rfl⟩
  | cons item items restIH =>
      obtain ⟨loc, test, body⟩ := item
      cases test with
      | none => exact restIH standing fits.2.2 values
      | some test =>
          refine (sim.eval standing fits.1).bind fun grows tested tested' both => ?_
          refine .of_paired fun further paired => ?_
          have grows := Pairing.le_trans grows further
          rw [paired.strictEquals (values.mono grows) (both.mono further)]
          split
          · exact .pure ⟨fits, rfl⟩
          · exact restIH (standing.mono grows) fits.2.2 (values.mono grows)

theorem execSwitch {subject : Expr} {items : List Case}
    (fitsSubject : Fits.expr diff position.arguments subject)
    (fits : Fits.cases diff position items) :
    ExecMatch diff side position.returns SameResult pairing
      (Exec.execSwitch diff.rule perform e subject items)
      (Exec.execSwitch .block perform' e' (WrapLoops.expr diff.chosen subject)
        (WrapLoops.cases diff.chosen items)) := by
  refine (sim.eval standing fitsSubject).bind fun grows value value' values => ?_
  refine (ExecMatch.blockFrame (standing.mono grows)).bind fun further inner inner' inners => ?_
  obtain ⟨kind, inners⟩ := inners
  rw [WrapLoops.flatMap_cases]
  refine (ExecMatch.declareFunctions inners.pair (fun _ => Fits.plain_flatMap fits)
    (Fits.stmts_flatMap fits)).bind_unit fun last _ _ => ?_
  have valuesLater := values.mono (Pairing.le_trans further last)
  refine (sim.matchingCases (inners.mono last) fits valuesLater).bind fun grows found found' both => ?_
  obtain ⟨fitsSelected, selected⟩ := both.selectCases fits
  simp only [selected, WrapLoops.flatMap_cases]
  exact .catchBreak none
    (sim.execAll (inners.mono (Pairing.le_trans last grows)) (Fits.stmts_flatMap fitsSelected))

/-! ## Exceptions -/

theorem execTry {block : Block} {handler : Option CatchClause} {finalizer : Option Block}
    (fits : Fits.nested diff position block) (fitsHandler : Fits.handler diff position handler)
    (fitsFinalizer : Fits.nestedOption diff position finalizer) :
    ExecMatch diff side position.returns SameResult pairing
      (Exec.execTry perform e block handler finalizer)
      (Exec.execTry perform' e' (WrapLoops.block diff.chosen block)
        (WrapLoops.handler diff.chosen handler) (WrapLoops.blockOption diff.chosen finalizer)) := by
  have body : ExecMatch diff side position.returns SameResult pairing
      (perform.exec (.block block) e)
      (perform'.exec (.block (WrapLoops.block diff.chosen block)) e') :=
    sim.exec [] standing fits
  have handled : ExecMatch diff side position.returns SameResult pairing
      (Exec.execTry perform e block handler none)
      (Exec.execTry perform' e' (WrapLoops.block diff.chosen block)
        (WrapLoops.handler diff.chosen handler) none) := by
    cases handler with
    | none => exact body
    | some clause =>
        obtain ⟨loc, param, inner⟩ := clause
        refine body.catchThrow fun grows value value' values => ?_
        refine (ExecMatch.newFrame (standing.mono grows) false).bind
          fun further inner inner' inners => ?_
        refine (ExecMatch.define inners (fun _ => nofun) fitsHandler.1
          (values.mono further)).bind_unit fun last _ _ => ?_
        exact sim.exec [] (inners.mono last) fitsHandler.2
  cases finalizer with
  | none => exact handled
  | some last => exact handled.andFinally (sim.exec [] standing fitsFinalizer)

/-! ## All statements -/

omit sim standing in
theorem labelsUnder_stmt (labels : List String) (label : Ident) (body : Stmt) :
    Exec.labelsUnder labels label (WrapLoops.stmt diff.chosen body) =
      Exec.labelsUnder labels label body := by
  cases body <;> rfl

theorem execStmt {fuel fuel' : Nat} (rounds : side.Rounds fuel fuel') (labels : List String)
    {stmt : Stmt} (fits : Fits.stmt diff position stmt) :
    ExecMatch diff side position.returns SameResult pairing
      (Exec.execStmt diff.rule fuel perform e labels stmt)
      (Exec.execStmt .block fuel' perform' e' labels (WrapLoops.stmt diff.chosen stmt)) := by
  cases stmt with
  | declaration item => exact sim.declare standing fits
  | function loc name params body => exact .pure rfl
  | block body =>
      obtain ⟨loc, stmts⟩ := body
      exact (ExecMatch.blockFrame standing).bind fun _ inner inner' ⟨_, inners⟩ =>
        sim.execBlock inners (fun _ => fits.1) fits.2
  | expr loc value => exact (sim.eval standing fits).bind_unit fun _ _ _ => .pure rfl
  | empty loc => exact .pure rfl
  | ifElse loc test yes no =>
      refine (sim.holds standing fits.1).bind fun grows holds holds' same => ?_
      obtain rfl := same
      cases holds' with
      | true => exact sim.exec [] (standing.mono grows) fits.2.1
      | false =>
          cases no with
          | none => exact .pure rfl
          | some no => exact sim.exec [] (standing.mono grows) fits.2.2
  | forLoop loc init test change body =>
      obtain ⟨fitsInit, fitsTest, fitsChange, fitsBody, whole⟩ := fits
      exact sim.execFor rounds standing labels loc fitsBody whole fitsInit fitsTest fitsChange
  | forEach loc kind target subject body =>
      obtain ⟨usable, plain, fitsSubject, fitsBody, whole⟩ := fits
      exact sim.execForEach rounds standing labels kind loc usable plain fitsSubject fitsBody whole
  | whileLoop loc test body =>
      obtain ⟨fitsTest, fitsBody, whole⟩ := fits
      exact sim.execWhile rounds standing labels loc fitsBody whole fitsTest
  | doWhile loc body test =>
      obtain ⟨fitsBody, whole, fitsTest⟩ := fits
      exact sim.execDoWhile rounds standing labels loc fitsBody whole fitsTest
  | returns loc value =>
      obtain ⟨allowed, fitsValue⟩ := fits
      cases value with
      | none => exact .stop (.returns allowed .undefined)
      | some value =>
          exact (sim.eval standing fitsValue).bind fun _ value value' values =>
            .stop (.returns allowed values)
  | breaks loc label => exact .stop (.breaks _)
  | continues loc label => exact .stop (.continues _)
  | throws loc value =>
      exact (sim.eval standing fits).bind fun _ value value' values => .throwValue values
  | tryCatch loc block handler finalizer => exact sim.execTry standing fits.1 fits.2.1 fits.2.2
  | switch loc subject items => exact sim.execSwitch standing fits.1 fits.2
  | labeled loc label body =>
      refine ExecMatch.catchBreak (some label.name) ?_
      rw [labelsUnder_stmt]
      exact sim.exec _ standing fits

end Simulates

end LoopCapture
