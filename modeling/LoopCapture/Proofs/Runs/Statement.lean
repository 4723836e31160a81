import LoopCapture.Proofs.Runs.Expression

/-!
# Statements agree

A loop takes up the jumps without label of its body and those with one of its own labels, a `switch`
takes up the `break`s without label of its cases, and a labelled statement the `break`s with its label.
What is left has its target around the statement. Frames of blocks, of loops and of their iterations
have what the frame of the statement has.
-/

set_option autoImplicit false

namespace LoopCapture

/-! ## Targets around a statement -/

theorem Targets.reaches_of_switch {targets : Targets} {jump : Jump}
    (reaches : targets.switch.Reaches jump) : jump = .breaks none ∨ targets.Reaches jump := by
  match jump, reaches with
  | .breaks none, _ => exact .inl rfl
  | .breaks (some _), member => exact .inr member
  | .continues none, inLoop => exact .inr inLoop
  | .continues (some _), member => exact .inr member
  | .returns _, returns => exact .inr returns

theorem Targets.reaches_of_label {targets : Targets} {name : String} {jump : Jump}
    (reaches : (targets.label name).Reaches jump) :
    jump = .breaks (some name) ∨ targets.Reaches jump := by
  match jump, reaches with
  | .breaks none, inBreakable => exact .inr inBreakable
  | .breaks (some other), member =>
      obtain rfl | around := List.mem_cons.mp member
      · exact .inl rfl
      · exact .inr around
  | .continues none, inLoop => exact .inr inLoop
  | .continues (some _), member => exact .inr member
  | .returns _, returns => exact .inr returns

/-! ## Names of cases -/

theorem hoistedNames_append (scoping : Scoping) (body rest : List Stmt) :
    hoistedNames scoping (body ++ rest) =
      hoistedNames scoping body ++ hoistedNames scoping rest := by
  induction body with
  | nil => rfl
  | cons first body ih => simp [hoistedNames, ih]

theorem hoistedNames_cases (scoping : Scoping) (cases : List Case) :
    hoistedNames scoping (cases.flatMap Case.body) = hoistedCases scoping cases := by
  induction cases with
  | nil => rfl
  | cons first rest ih =>
      obtain ⟨loc, test, body⟩ := first
      rw [List.flatMap_cons, hoistedNames_append, ih]
      rfl

theorem hoistedCases_suffix {scoping : Scoping} {some all : List Case} (suffix : some <:+ all) :
    hoistedCases scoping some ⊆ hoistedCases scoping all := by
  obtain ⟨before, rfl⟩ := suffix
  rw [← hoistedNames_cases, ← hoistedNames_cases, List.flatMap_append, hoistedNames_append]
  exact List.subset_append_right _ _

/-! ## Frames and collections -/

variable [Watch] {frames : Frames Value}

/-- The items that a collection has of its own are sound. -/
def Exec.Collection.Sound [Watch] (frames : Frames Value) : Exec.Collection → Prop
  | .live _ => True
  | .fixed items => ValuesSound frames items.toList

instance : Lasting Exec.Collection.Sound where
  mono {_ _ collection} sound grows := by
    cases collection with
    | live array => trivial
    | fixed items => exact ValuesSound.mono sound grows

theorem charTexts_sound (text : String) : ValuesSound frames (Exec.charTexts text).toList := by
  intro value member
  obtain ⟨c, -, rfl⟩ := List.mem_map.mp member
  trivial

namespace Exec.Agree

variable {targets : Targets} {value : Value} {frame : FrameId} {names : List String}

theorem blockFrame (served : Served frames frame names) (scoping : Scoping) :
    Safe frames targets (Served · · names) (Exec.blockFrame scoping frame) := by
  cases scoping with
  | function => exact pure served
  | block => exact newFrame served false

theorem headerFrame (served : Served frames frame names) (copies : Bool) :
    Safe frames targets (Served · · names) (Exec.headerFrame copies frame) := by
  cases copies with
  | true => exact newFrame served false
  | false => exact pure served

theorem nextFrame (served : Served frames frame names) (copies : Bool) :
    Safe frames targets (Served · · names) (Exec.nextFrame copies frame) := by
  cases copies with
  | true => exact copyFrame served
  | false => exact pure served

theorem bindItem (good : value.Sound frames) {scoping : Scoping} {target : ForTarget}
    (served : Served frames frame (target.hoisted scoping ++ names)) :
    Agree frames targets (Served · · names) (Exec.bindItem scoping frame value target)
      (Exec.bindItemBy Watch.access scoping frame value target) := by
  cases target with
  | declared loc kind ident =>
      simp only [Exec.bindItem, Exec.bindItemBy]
      split
      · exact (newFrame served.right false).bind fun grows inner served =>
          (define (good.mono grows) inner ident.name).bind fun further _ _ =>
            pure (served.mono further)
      · rename_i hoists
        refine (assignDeclared good served ?_).bind fun grows _ _ => pure (served.right.mono grows)
        simp [ForTarget.hoisted, hoists]
  | existing ident =>
      exact (setVariable good frame ident.name).bind fun grows _ _ => pure (served.mono grows)

theorem collectionOf (kind : EachKind) (value : Value) :
    Safe frames targets Collection.Sound (Exec.collectionOf kind value) := by
  unfold Exec.collectionOf
  split
  · exact pure trivial
  · exact pure (charTexts_sound _)
  · split
    · exact pure .nil
    · exact (display _).bind fun _ _ _ => throwText _

theorem itemAt (kind : EachKind) {collection : Collection} (good : collection.Sound frames)
    (index : Nat) :
    Safe frames targets (Maybe Value.Sound) (Exec.itemAt kind collection index) := by
  have held : Safe frames targets (fun later items => ValuesSound later items.toList)
      collection.items := by
    cases collection with
    | live array => exact getItems array
    | fixed items => exact fun _ grows sound => ⟨rfl, .refl _, sound, ValuesSound.mono good grows⟩
  refine held.bind fun _ items sound => pure fun value found => ?_
  obtain ⟨item, present, rfl⟩ := Option.map_eq_some_iff.mp found
  cases kind with
  | keys => trivial
  | values => exact sound item (Array.mem_toList_iff.mpr (Array.mem_of_getElem? present))

end Exec.Agree

namespace Performer.Agrees

open Exec (Agree Safe)

variable {scoping : Scoping} {perform perform' : Performer}
  (agree : Agrees scoping perform perform') {targets : Targets} {frame : FrameId}
  {own names : List String} {body : Stmt}

include agree

/-! ## Declarations -/

theorem declareAll {declarators : List Declarator} {inBlock : Bool}
    (targeted : Targeted (declaratorsWellTargeted declarators)) (served : Served frames frame names)
    (declared : inBlock = false → declarators.map (·.ident.name) ⊆ names) :
    Agree frames targets AnyEnd (Exec.declareAll inBlock perform frame declarators)
      (Exec.declareAllBy Watch.access inBlock perform' frame declarators) := by
  induction declarators generalizing frames with
  | nil => exact .pure trivial
  | cons first rest ih =>
      obtain ⟨loc, ident, init⟩ := first
      have one : Agree frames targets AnyEnd
          (Exec.declareOne inBlock perform frame (.mk loc ident init))
          (Exec.declareOneBy Watch.access inBlock perform' frame (.mk loc ident init)) := by
        cases init with
        | none =>
            cases inBlock with
            | true => exact .define undefined_sound frame ident.name
            | false => exact .pure trivial
        | some value =>
            have valueTargeted : Targeted value.WellTargeted := targeted.left
            have evaluated := agree.eval valueTargeted served.this
            cases inBlock with
            | true => exact evaluated.widen.bind fun _ _ sound => .define sound frame ident.name
            | false =>
                refine evaluated.widen.bind fun grows _ sound =>
                  .assignDeclared sound (served.mono grows) ?_
                exact declared rfl List.mem_cons_self
      exact one.bind fun grows _ _ => ih targeted.right (served.mono grows) fun hoists =>
        fun _ member => declared hoists (List.mem_cons_of_mem _ member)

theorem declare {declaration : Declaration} (targeted : Targeted declaration.WellTargeted)
    (served : Served frames frame (declaration.hoisted scoping)) :
    Agree frames targets AnyEnd (Exec.declare scoping perform frame declaration)
      (Exec.declareBy Watch.access scoping perform' frame declaration) := by
  obtain ⟨loc, kind, declarators⟩ := declaration
  refine agree.declareAll targeted served fun hoists => ?_
  rw [Declaration.hoisted, if_neg (by simp [hoists])]
  exact List.Subset.refl _

/-! ## Loops -/

theorem holds {test : Expr} (targeted : Targeted test.WellTargeted)
    (served : Served frames frame []) :
    agree.Executes frames targets (Exec.holds · frame test) :=
  (agree.eval targeted served).widen.bind fun _ value _ => .truthy value

theorem evalOption {value : Option Expr} (targeted : Targeted (exprOptionWellTargeted value))
    (served : Served frames frame []) :
    agree.Executes frames targets (Exec.evalOption · frame value) := by
  cases value with
  | none => exact .pure trivial
  | some value =>
      have valueTargeted : Targeted value.WellTargeted := targeted
      exact (agree.eval valueTargeted served).widen.bind fun _ _ _ => .pure trivial

theorem goesOn {test : Option Expr} (targeted : Targeted (exprOptionWellTargeted test))
    (served : Served frames frame []) :
    agree.Executes frames targets (Exec.goesOn · frame test) := by
  cases test with
  | none => exact .pure trivial
  | some test => exact agree.holds targeted served

theorem execInit {init : Option ForInit} (targeted : Targeted (forInitWellTargeted init))
    (served : Served frames frame ((init.map (·.hoisted scoping)).getD [])) :
    Agree frames targets AnyEnd (Exec.execInit scoping perform frame init)
      (Exec.execInitBy Watch.access scoping perform' frame init) := by
  cases init with
  | none => exact .pure trivial
  | some init =>
      cases init with
      | declaration declaration => exact agree.declare targeted served
      | expr value =>
          have valueTargeted : Targeted value.WellTargeted := targeted
          exact (agree.eval valueTargeted served).widen.bind fun _ _ _ => .pure trivial

theorem iteration (targeted : Targeted (body.WellTargeted (targets.loop own) []))
    (served : Served frames frame (body.hoisted scoping)) :
    Agree frames targets AnyEnd (Exec.iteration own (perform.exec body frame))
      (Exec.iteration own (perform'.exec body frame)) :=
  .iteration (agree.exec targeted served)

theorem execWhile {test : Expr} (testTargeted : Targeted test.WellTargeted)
    (targeted : Targeted (body.WellTargeted (targets.loop own) [])) (fuel : Nat)
    (served : Served frames frame (body.hoisted scoping)) :
    agree.Executes frames targets (Exec.execWhile fuel · frame own test body) := by
  refine .iterate AnyEnd (fun grows _ _ => ?_) fuel trivial
  have still := served.mono grows
  refine (agree.holds testTargeted still.this).bind fun further enters _ => ?_
  cases enters with
  | true =>
      exact (agree.iteration targeted (still.mono further)).bind fun _ _ _ => .pure fun _ _ => trivial
  | false => exact .pure fun _ _ => trivial

theorem execDoWhile {test : Expr} (testTargeted : Targeted test.WellTargeted)
    (targeted : Targeted (body.WellTargeted (targets.loop own) [])) (fuel : Nat)
    (served : Served frames frame (body.hoisted scoping)) :
    agree.Executes frames targets (Exec.execDoWhile fuel · frame own body test) := by
  refine .iterate AnyEnd (fun grows _ _ => ?_) fuel trivial
  have still := served.mono grows
  refine (agree.iteration targeted still).bind fun further again _ => ?_
  cases again with
  | true =>
      exact (agree.holds testTargeted (still.mono further).this).bind
        fun _ _ _ => .pure fun _ _ => trivial
  | false => exact .pure fun _ _ => trivial

theorem execFor {init : Option ForInit} {test change : Option Expr}
    (initTargeted : Targeted (forInitWellTargeted init))
    (testTargeted : Targeted (exprOptionWellTargeted test))
    (changeTargeted : Targeted (exprOptionWellTargeted change))
    (targeted : Targeted (body.WellTargeted (targets.loop own) [])) (fuel : Nat)
    (served : Served frames frame
      ((init.map (·.hoisted scoping)).getD [] ++ body.hoisted scoping)) :
    Agree frames targets AnyEnd (Exec.execFor scoping fuel perform frame own init test change body)
      (Exec.execForBy Watch.access scoping fuel perform' frame own init test change body) := by
  refine (Agree.headerFrame served _).bind fun _ header served =>
    (agree.execInit initTargeted served.left).bind fun grows _ _ =>
      (Agree.nextFrame (served.right.mono grows) _).bind fun _ start served =>
        .iterate (Served · · (body.hoisted scoping)) (fun _ current served => ?_) fuel served
  refine (agree.goesOn testTargeted served.this).bind fun grows enters _ => ?_
  cases enters with
  | false => exact .pure fun _ found => absurd found (by simp)
  | true =>
      have still := served.mono grows
      refine (agree.iteration targeted still).bind fun further again _ => ?_
      cases again with
      | false => exact .pure fun _ found => absurd found (by simp)
      | true =>
          refine (Agree.nextFrame (still.mono further) _).bind fun _ next served =>
            (agree.evalOption changeTargeted served.this).bind fun last _ _ =>
              .pure fun state found => ?_
          exact Option.some.inj found ▸ served.mono last

theorem execForEach {subject : Expr} (subjectTargeted : Targeted subject.WellTargeted)
    (targeted : Targeted (body.WellTargeted (targets.loop own) [])) (fuel : Nat)
    (kind : EachKind) {target : ForTarget}
    (served : Served frames frame (target.hoisted scoping ++ body.hoisted scoping)) :
    Agree frames targets AnyEnd
      (Exec.execForEach scoping fuel perform frame own kind target subject body)
      (Exec.execForEachBy Watch.access scoping fuel perform' frame own kind target subject body) := by
  refine (agree.eval subjectTargeted served.this).widen.bind fun grows value _ =>
    (Agree.collectionOf kind value).bind fun further collection held =>
      .iterate AnyEnd (fun {current} onward index _ => ?_) fuel trivial
  have still := served.mono ((grows.trans further).trans onward)
  refine (Agree.itemAt kind (Lasting.mono held onward) index).bind fun next item sound => ?_
  cases item with
  | none => exact .pure fun _ _ => trivial
  | some value =>
      exact (Agree.bindItem (sound value rfl) (still.mono next)).bind fun _ inner served =>
        (agree.iteration targeted served).bind fun _ _ _ => .pure fun _ _ => trivial

/-! ## Exceptions and cases -/

theorem execBlockStmt {block : Block} (targeted : Targeted (block.WellTargeted targets))
    (served : Served frames frame (block.hoisted scoping)) :
    Agree frames targets AnyEnd (perform.exec (.block block) frame)
      (perform'.exec (.block block) frame) :=
  agree.exec (show Targeted (Stmt.WellTargeted targets [] (.block block)) from targeted) served

theorem execTry {block : Block} {handler : Option CatchClause} {finalizer : Option Block}
    (targeted : Targeted (block.WellTargeted targets))
    (handlerTargeted : Targeted (handlerWellTargeted targets handler))
    (finalizerTargeted : Targeted (blockOptionWellTargeted targets finalizer))
    (served : Served frames frame (block.hoisted scoping ++ hoistedHandler scoping handler ++
      hoistedFinalizer scoping finalizer)) :
    agree.Executes frames targets (Exec.execTry · frame block handler finalizer) := by
  have body := agree.execBlockStmt targeted served.left.left
  have handled : agree.Executes frames targets (Exec.execTry · frame block handler none) := by
    cases handler with
    | none => exact body
    | some clause =>
        obtain ⟨loc, param, caught⟩ := clause
        have caughtServed : Served frames frame (caught.hoisted scoping) := served.left.right
        exact body.catchThrow fun grows value sound =>
          (Agree.newFrame (caughtServed.mono grows) false).bind fun further inner served =>
            (Agree.define (sound.mono further) inner param.name).bind fun last _ _ =>
              agree.execBlockStmt handlerTargeted (served.mono last)
  cases finalizer with
  | none => exact handled
  | some last => exact handled.andFinally (agree.execBlockStmt finalizerTargeted served.right)

theorem matchingCases {cases : List Case} (targeted : Targeted (casesWellTargeted targets cases))
    (value : Value) (served : Served frames frame []) :
    Agree frames .program (fun _ found => found <:+ cases)
      (Exec.matchingCases perform frame value cases)
      (Exec.matchingCases perform' frame value cases) := by
  have found {later : Frames Value} {found all : List Case} (suffix : found <:+ all) :
      Safe later .program (fun _ found => found <:+ all) (pure found) :=
    fun _ _ sound => ⟨rfl, .refl _, sound, suffix⟩
  induction cases generalizing frames with
  | nil => exact found List.suffix_rfl
  | cons first rest ih =>
      have later {frames : Frames Value} (served : Served frames frame []) :
          Agree frames .program (fun _ found => found <:+ first :: rest)
            (Exec.matchingCases perform frame value rest)
            (Exec.matchingCases perform' frame value rest) :=
        (ih (fun watched => casesWellTargeted_suffix (List.suffix_cons _ _) (targeted watched))
          served).weaken fun _ _ suffix => suffix.trans (List.suffix_cons _ _)
      obtain ⟨loc, test, body⟩ := first
      cases test with
      | none => exact later served
      | some test =>
          have testTargeted : Targeted test.WellTargeted := targeted.left
          refine (agree.eval testTargeted served).bind fun grows tested _ => ?_
          split
          · exact found List.suffix_rfl
          · exact later (served.mono grows)

theorem execSwitch {subject : Expr} {cases : List Case}
    (subjectTargeted : Targeted subject.WellTargeted)
    (targeted : Targeted (casesWellTargeted targets.switch cases))
    (served : Served frames frame (hoistedCases scoping cases)) :
    agree.Executes frames targets (Exec.execSwitch scoping · frame subject cases) := by
  refine (agree.eval subjectTargeted served.this).widen.bind fun grows value _ =>
    (Agree.blockFrame (served.mono grows) scoping).bind fun _ inner served =>
      (Agree.declareFunctions (fun watched => stmtsWellTargeted_cases (targeted watched))
        served.this).bind fun declared _ _ => ?_
  refine (agree.matchingCases targeted value (served.mono declared).this).widen.bind
    fun tested matching found => ?_
  have selected : Exec.selectCases cases matching <:+ cases := by
    cases matching with
    | nil => exact List.dropWhile_suffix _
    | cons first rest => exact found
  have bodiesTargeted : Targeted (stmtsWellTargeted targets.switch
      ((Exec.selectCases cases matching).flatMap Case.body)) :=
    fun watched => stmtsWellTargeted_cases (casesWellTargeted_suffix selected (targeted watched))
  refine .catchBreak (agree.execAll bodiesTargeted ?_) fun _ => Targets.reaches_of_switch
  rw [hoistedNames_cases]
  exact (served.mono (declared.trans tested)).sub (hoistedCases_suffix selected)

/-! ## Statements -/

theorem execStmt {stmt : Stmt} (targeted : Targeted (stmt.WellTargeted targets own))
    (fuel : Nat) (served : Served frames frame (stmt.hoisted scoping)) :
    Agree frames targets AnyEnd (Exec.execStmt scoping fuel perform frame own stmt)
      (Exec.execStmtBy Watch.access scoping fuel perform' frame own stmt) := by
  cases stmt with
  | declaration declaration => exact agree.declare targeted served
  | function loc name params body => exact .pure trivial
  | block block =>
      obtain ⟨loc, body⟩ := block
      exact (Agree.blockFrame served scoping).bind fun _ inner served =>
        agree.execBlock targeted served
  | expr loc value =>
      have valueTargeted : Targeted value.WellTargeted := targeted
      exact (agree.eval valueTargeted served).widen.bind fun _ _ _ => .pure trivial
  | empty loc => exact .pure trivial
  | ifElse loc test yes no =>
      refine (agree.holds targeted.left served.this).bind fun grows chosen _ => ?_
      cases chosen with
      | true => exact agree.exec targeted.right.left (served.left.mono grows)
      | false =>
          cases no with
          | none => exact .pure trivial
          | some no => exact agree.exec targeted.right.right (served.right.mono grows)
  | forLoop loc init test change body =>
      exact agree.execFor targeted.left targeted.right.left targeted.right.right.left
        targeted.right.right.right fuel served
  | forEach loc kind target subject body =>
      exact agree.execForEach targeted.left targeted.right fuel kind served
  | whileLoop loc test body => exact agree.execWhile targeted.left targeted.right fuel served
  | doWhile loc body test => exact agree.execDoWhile targeted.right targeted.left fuel served
  | returns loc value =>
      cases value with
      | none => exact .stop trivial targeted.left
      | some value =>
          exact (agree.eval targeted.right served).widen.bind fun _ _ sound =>
            .stop sound targeted.left
  | breaks loc label => exact .stop trivial targeted
  | continues loc label => exact .stop trivial targeted
  | throws loc value =>
      have valueTargeted : Targeted value.WellTargeted := targeted
      exact (agree.eval valueTargeted served).widen.bind fun _ _ sound => .throwValue sound
  | tryCatch loc block handler finalizer =>
      exact agree.execTry targeted.left targeted.right.left targeted.right.right served
  | switch loc subject cases => exact agree.execSwitch targeted.left targeted.right served
  | labeled loc name body =>
      have bodyTargeted : Targeted (body.WellTargeted (targets.label name.name)
          (own ++ [name.name])) := targeted
      exact .catchBreak (agree.exec
        (fun watched => Stmt.wellTargeted_labelsUnder (bodyTargeted watched)) served)
        fun _ => Targets.reaches_of_label

end Performer.Agrees

end LoopCapture
