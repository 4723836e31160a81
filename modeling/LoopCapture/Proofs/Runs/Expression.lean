import LoopCapture.Proofs.Runs.Primitives

/-!
# Expressions and calls agree

An expression has no jumps of its own, and a call takes up the `return` of the function. The frame of
a call has what the frame of the function has, and the names of all declarations of its body are given
variables before the body is run.
-/

set_option autoImplicit false

namespace LoopCapture

/-! ## Performers -/

/-- Two performers agree on activities: evaluations and calls do not jump, and statements run where
there are variables for their declarations. -/
structure Performer.Agrees [Watch] (scoping : Scoping) (perform perform' : Performer) :
    Prop where
  eval : ∀ {frames : Frames Value} {frame : FrameId} {expr : Expr},
    Targeted expr.WellTargeted → Served frames frame [] →
    Exec.Agree frames .program Value.Sound (perform.eval expr frame)
      (perform'.eval expr frame)
  exec : ∀ {frames : Frames Value} {frame : FrameId} {targets : Targets} {labels : List String}
    {stmt : Stmt}, Targeted (stmt.WellTargeted targets labels) →
    Served frames frame (stmt.hoisted scoping) →
    Exec.Agree frames targets AnyEnd (perform (.exec stmt frame labels))
      (perform' (.exec stmt frame labels))
  invoke : ∀ {frames : Frames Value} {function this : Value} {args : List Value},
    function.Sound frames → this.Sound frames → ValuesSound frames args →
    Exec.Agree frames .program Value.Sound (perform.invoke function this args)
      (perform'.invoke function this args)

namespace Performer.Agrees

open Exec (Agree Safe)

variable [Watch] {frames : Frames Value} {scoping : Scoping} {perform perform' : Performer}

/-- What both performers make of a computation with a value is the same, and does not jump. -/
abbrev Evaluates (_ : Agrees scoping perform perform') (frames : Frames Value)
    (run : Performer → Exec Value) : Prop :=
  Agree frames .program Value.Sound (run perform) (run perform')

abbrev Executes {α : Type} (_ : Agrees scoping perform perform') (frames : Frames Value)
    (targets : Targets) (run : Performer → Exec α) : Prop :=
  Agree frames targets AnyEnd (run perform) (run perform')

variable (agree : Agrees scoping perform perform') {targets : Targets} {frame : FrameId}
  {value this function : Value} {args : List Value} {place : Place}

include agree

theorem evalAll {exprs : List Expr} (targeted : Targeted (exprsWellTargeted exprs))
    (served : Served frames frame []) :
    Agree frames .program ValuesSound (perform.evalAll exprs frame)
      (perform'.evalAll exprs frame) :=
  .mapItems (fun grows _ expr member =>
    agree.eval (fun watched => exprsWellTargeted_iff.mp (targeted watched) expr member)
      (served.mono grows)) 0

theorem execAll {body : List Stmt} (targeted : Targeted (stmtsWellTargeted targets body))
    (served : Served frames frame (hoistedNames scoping body)) :
    Agree frames targets AnyEnd (perform.execAll frame body) (perform'.execAll frame body) := by
  induction body generalizing frames with
  | nil => exact .pure trivial
  | cons stmt rest ih =>
      exact (agree.exec targeted.left served.left).bind fun grows _ _ =>
        ih targeted.right (served.right.mono grows)

theorem execBlock {body : List Stmt} (targeted : Targeted (stmtsWellTargeted targets body))
    (served : Served frames frame (hoistedNames scoping body)) :
    agree.Executes frames targets (Exec.execBlock · frame body) :=
  (Agree.declareFunctions targeted served.this).bind fun grows _ _ =>
    agree.execAll targeted (served.mono grows)

theorem execBody {body : List Stmt} (targeted : Targeted (stmtsWellTargeted targets body))
    (served : Served frames frame []) :
    agree.Executes frames targets (Exec.execBody scoping · frame body) :=
  (Agree.declareNames served _).bind fun _ _ served => agree.execBlock targeted served.left

/-! ## Calls -/

theorem callEach {α : Type} {post : Post α} [Lasting post] (array : ArrayId)
    (good : ValuesSound frames args) {use : Value → Value → Exec α}
    (uses : ∀ {later : Frames Value} (item result : Value), item.Sound later →
      result.Sound later → Safe later .program post (use item result)) :
    Agree frames .program (Each post)
      (Exec.callEach perform array args use) (Exec.callEach perform' array args use) := by
  refine (Agree.getItems array).bind fun grows items sound =>
    .mapItems (fun further index item member => ?_) 0
  cases args with
  | nil => exact .stop trivial fun _ => trivial
  | cons function rest =>
      have itemSound := (sound item member).mono further
      have functionSound := (good function List.mem_cons_self).mono (grows.trans further)
      have given : ValuesSound _ [item, .int index, .array array] :=
        .cons itemSound (.cons trivial (.cons trivial .nil))
      exact (agree.invoke functionSound undefined_sound given).bind fun last result resultSound =>
        uses item result (itemSound.mono last) resultSound

theorem callArrayMethod (method : ArrayMethod) (array : ArrayId) (good : ValuesSound frames args) :
    agree.Evaluates frames (Exec.callArrayMethod · method array args) := by
  cases method with
  | push =>
      refine (Agree.modifyItems (fun grows items sound => ?_) array).bind fun _ _ _ =>
        (Agree.getItems array).bind fun _ _ _ => .pure trivial
      rw [Array.toList_append]
      exact sound.append (good.mono grows)
  | pop =>
      refine (Agree.getItems array).bind fun _ items sound =>
        (Agree.modifyItems (fun _ others kept => ?_) array).bind fun grows _ _ => .pure ?_
      · rw [Array.toList_pop]
        exact fun value member => kept value (List.dropLast_subset _ member)
      · rw [Array.back?_eq_getElem?, ← Array.getElem?_toList]
        exact (sound.mono grows).getD _
  | forEach =>
      have visited : Agree frames .program (Each AnyEnd)
          (Exec.callEach perform array args fun _ _ => return ())
          (Exec.callEach perform' array args fun _ _ => return ()) :=
        agree.callEach array good fun _ _ _ _ => .pure trivial
      exact visited.bind fun _ _ _ => .pure trivial
  | map =>
      exact (agree.callEach array good fun _ _ _ sound => .pure sound).bind
        fun _ _ sound => .newArray sound
  | filter =>
      have keeps {later : Frames Value} (item result : Value) (itemSound : item.Sound later) :
          Safe later .program ValuesSound
            (do return if ← Exec.truthy result then [item] else []) := by
        refine (Agree.truthy result).bind fun grows chosen _ => .pure ?_
        cases chosen with
        | true => exact .cons (itemSound.mono grows) .nil
        | false => exact .nil
      refine (agree.callEach array good fun item result itemSound _ =>
        keeps item result itemSound).bind fun _ results sound => .newArray fun value member => ?_
      obtain ⟨group, inResults, inGroup⟩ := List.mem_flatten.mp member
      exact sound group inResults value inGroup
  | join =>
      refine (Agree.separator args).bind fun _ _ _ => (Agree.getItems array).bind fun _ items _ => ?_
      have shown {later : Frames Value} (item : Value) : Safe later .program AnyEnd
          (if item.isMissing then return "" else Exec.display item) := by
        split
        · exact .pure trivial
        · exact .display item
      exact (Agree.mapItems (fun _ _ item _ => shown item) 0).bind fun _ _ _ => .pure trivial
  | indexOf =>
      refine (Agree.getItems array).bind fun _ items _ => .pure ?_
      split <;> trivial

theorem callClosure {closure : Closure} (sound : closure.Sound frames)
    (thisSound : this.Sound frames) (good : ValuesSound frames args) :
    agree.Evaluates frames (Exec.callClosure scoping · closure this args) := by
  obtain ⟨isArrow, params, body, frame⟩ := closure
  obtain ⟨targeted, served⟩ := sound
  refine (Agree.newFrame served true).bind fun {start} grows inner served => ?_
  have bound {later : Frames Value} {run run' : Exec Value} (further : start.Grows later)
      (runs : ∀ {last : Frames Value}, Served last inner [] →
        Agree last .program Value.Sound run run') :
      Agree later .program Value.Sound
        (do Exec.bindParams inner params args; run) (do Exec.bindParams inner params args; run') :=
    (Agree.bindParams inner params (good.mono (grows.trans further))).bind fun last _ _ =>
      runs (served.mono (further.trans last))
  have named {run run' : Exec Value} (runs : ∀ {later : Frames Value}, start.Grows later →
        Agree later .program Value.Sound run run') :
      Agree start .program Value.Sound
        (do
          Exec.define inner "this" this
          Exec.define inner "arguments" (← Exec.newArray args.toArray)
          run)
        (do
          Exec.define inner "this" this
          Exec.define inner "arguments" (← Exec.newArray args.toArray)
          run') :=
    (Agree.define (thisSound.mono grows) inner "this").bind fun defined _ _ =>
      (Agree.newArray (good.mono (grows.trans defined))).bind fun made _ sound =>
        (Agree.define sound inner "arguments").bind fun last _ _ =>
          runs ((defined.trans made).trans last)
  cases body with
  | expr value =>
      have valueTargeted : Targeted value.WellTargeted := targeted
      cases isArrow with
      | true => exact bound (.refl _) (agree.eval valueTargeted)
      | false => exact named fun further => bound further (agree.eval valueTargeted)
  | block body =>
      obtain ⟨loc, stmts⟩ := body
      have bodyTargeted : Targeted (stmtsWellTargeted .function stmts) := targeted
      cases isArrow with
      | true => exact bound (.refl _) fun served => .catchReturn (agree.execBody bodyTargeted served)
      | false =>
          exact named fun further => bound further fun served =>
            .catchReturn (agree.execBody bodyTargeted served)

theorem callValue (functionSound : function.Sound frames) (thisSound : this.Sound frames)
    (good : ValuesSound frames args) :
    agree.Evaluates frames (Exec.callValue scoping · function this args) := by
  have refused : Safe frames .program Value.Sound
      (do
        let shown ← Exec.display function
        Exec.throwText s!"TypeError: {shown} is not a function") :=
    (Agree.display function).bind fun _ _ _ => .throwText _
  cases function with
  | function stamp closure => exact agree.callClosure functionSound thisSound good
  | native native => exact .callNative native good
  | arrayMethod stamp method array => exact agree.callArrayMethod method array good
  | functionMethod stamp method target =>
      have targetSound : target.Sound frames := functionSound
      cases method with
      | call => exact agree.invoke targetSound good.headD good.tail
      | apply =>
          exact (Agree.argumentsOf _).bind fun grows _ given =>
            agree.invoke (targetSound.mono grows) (good.headD.mono grows) given
  | _ => exact refused

/-! ## Expressions -/

theorem evalPlace (targeted : Targeted place.WellTargeted) (served : Served frames frame []) :
    agree.Evaluates frames (Exec.evalPlace · frame place) := by
  cases place with
  | ident name => exact .getVariable frame name.name
  | member loc object property =>
      have objectTargeted : Targeted object.WellTargeted := targeted
      exact (agree.eval objectTargeted served).bind fun _ _ sound => .getMember sound _
  | index loc object key =>
      exact (agree.eval targeted.left served).bind fun grows _ sound =>
        (agree.eval targeted.right (served.mono grows)).bind fun further _ _ =>
          .getMember (sound.mono further) _

theorem assign (targeted : Targeted place.WellTargeted) (sound : value.Sound frames)
    (served : Served frames frame []) :
    agree.Executes frames .program (Exec.assign · frame value place) := by
  cases place with
  | ident name => exact .setVariable sound frame name.name
  | member loc object property =>
      have objectTargeted : Targeted object.WellTargeted := targeted
      exact (agree.eval objectTargeted served).bind fun grows _ _ =>
        .setMember (sound.mono grows) _ _
  | index loc object key =>
      exact (agree.eval targeted.left served).bind fun grows _ _ =>
        (agree.eval targeted.right (served.mono grows)).bind fun further _ _ =>
          .setMember (sound.mono (grows.trans further)) _ _

theorem assignedValue {expr : Expr} (placeTargeted : Targeted place.WellTargeted)
    (targeted : Targeted expr.WellTargeted) (op : AssignOp) (served : Served frames frame []) :
    agree.Evaluates frames (Exec.assignedValue · frame op place expr) := by
  cases op with
  | plain => exact agree.eval targeted served
  | combined op =>
      exact (agree.evalPlace placeTargeted served).bind fun grows _ _ =>
        (agree.eval targeted (served.mono grows)).bind fun _ _ _ => .applyBinary _ _ _

theorem evalUpdate (targeted : Targeted place.WellTargeted) (op : UpdateOp) (before : Bool)
    (served : Served frames frame []) :
    agree.Evaluates frames (Exec.evalUpdate · frame op before place) :=
  (agree.evalPlace targeted served).bind fun grows _ _ =>
    (Agree.ofNumber _).bind fun further new _ =>
      (agree.assign targeted (number_sound new) (served.mono (grows.trans further))).bind
        fun _ _ _ => .pure trivial

theorem evalCallee {callee : Expr} (targeted : Targeted callee.WellTargeted)
    (served : Served frames frame []) :
    Agree frames .program (fun later pair => ValuesSound later [pair.1, pair.2])
      (Exec.evalCallee perform frame callee) (Exec.evalCallee perform' frame callee) := by
  have pair {later : Frames Value} {callee this : Value} (sound : callee.Sound later)
      (thisSound : this.Sound later) :
      Safe later .program (fun last pair => ValuesSound last [pair.1, pair.2])
        (pure (callee, this)) :=
    fun _ grows machineSound =>
      ⟨rfl, .refl _, machineSound, (ValuesSound.cons sound (.cons thisSound .nil)).mono grows⟩
  unfold Exec.evalCallee
  split
  · rename_i object property
    have objectTargeted : Targeted object.WellTargeted := targeted
    exact (agree.eval objectTargeted served).bind fun _ _ thisSound =>
      (Agree.getMember thisSound _).bind fun grows _ sound =>
        pair sound (thisSound.mono grows)
  · exact (agree.eval targeted.left served).bind fun grows _ thisSound =>
      (agree.eval targeted.right (served.mono grows)).bind fun further _ _ =>
        (Agree.getMember (thisSound.mono further) _).bind fun last _ sound =>
          pair sound (thisSound.mono (further.trans last))
  · exact (agree.eval targeted served).bind fun _ _ sound => pair sound undefined_sound

theorem evalUnary {operand : Expr} (targeted : Targeted operand.WellTargeted) (op : UnaryOp)
    (served : Served frames frame []) :
    agree.Evaluates frames (Exec.evalUnary · frame op operand) := by
  have evaluated := agree.eval targeted served
  cases op with
  | typeof =>
      refine (Agree.isUnbound frame operand).bind fun grows unbound _ => ?_
      cases unbound with
      | true => exact .pure trivial
      | false =>
          exact (agree.eval targeted (served.mono grows)).bind fun _ _ _ => .pure trivial
  | not =>
      exact evaluated.bind fun _ value _ => (Agree.truthy value).bind fun _ _ _ => .pure trivial
  | negate => exact evaluated.bind fun _ _ _ => .pure trivial
  | plus => exact evaluated.bind fun _ _ _ => .pure trivial

theorem evalLogical {left right : Expr} (leftTargeted : Targeted left.WellTargeted)
    (rightTargeted : Targeted right.WellTargeted) (op : LogicalOp)
    (served : Served frames frame []) :
    agree.Evaluates frames (Exec.evalLogical · frame op left right) := by
  refine (agree.eval leftTargeted served).bind fun grows value sound =>
    (Agree.truthy value).bind fun further holds _ => ?_
  have evaluated := agree.eval rightTargeted (served.mono (grows.trans further))
  have kept : Safe _ .program Value.Sound (pure value) := .pure (sound.mono further)
  cases op with
  | and => cases holds with
    | true => exact evaluated
    | false => exact kept
  | or => cases holds with
    | true => exact kept
    | false => exact evaluated

theorem evalExpr {expr : Expr} (targeted : Targeted expr.WellTargeted)
    (served : Served frames frame []) :
    Agree frames .program Value.Sound (Exec.evalExpr perform frame expr)
      (Exec.evalExprBy Watch.access perform' frame expr) := by
  cases expr with
  | place place => exact agree.evalPlace targeted served
  | literal loc literal raw => exact .pure (ofLiteral_sound literal)
  | this loc => exact .readThis served
  | array loc items => exact (agree.evalAll targeted served).bind fun _ _ good => .newArray good
  | function loc params body => exact .newFunction ⟨targeted, served⟩
  | arrow loc params body => exact .newFunction ⟨targeted, served⟩
  | call loc callee args =>
      exact (agree.evalCallee targeted.left served).bind fun grows _ sound =>
        (agree.evalAll targeted.right (served.mono grows)).bind fun further _ given =>
          agree.invoke (sound.headD.mono further) (sound.getLastD.mono further) given
  | assign loc op target value =>
      exact (agree.assignedValue targeted.left targeted.right op served).bind fun grows _ sound =>
        (agree.assign targeted.left sound (served.mono grows)).bind fun further _ _ =>
          .pure (sound.mono further)
  | update loc op before target => exact agree.evalUpdate targeted op before served
  | binary loc op left right =>
      exact (agree.eval targeted.left served).bind fun grows _ _ =>
        (agree.eval targeted.right (served.mono grows)).bind fun _ _ _ => .applyBinary _ _ _
  | logical loc op left right => exact agree.evalLogical targeted.left targeted.right op served
  | unary loc op operand => exact agree.evalUnary (show Targeted operand.WellTargeted from targeted) op served
  | conditional loc test yes no =>
      refine (agree.eval targeted.left served).bind fun grows value _ =>
        (Agree.truthy value).bind fun further holds _ => ?_
      have still := served.mono (grows.trans further)
      cases holds with
      | true => exact agree.eval targeted.right.left still
      | false => exact agree.eval targeted.right.right still
  | sequence loc items =>
      exact (agree.evalAll targeted served).bind fun _ _ good => .pure good.getLastD

end Performer.Agrees

end LoopCapture
