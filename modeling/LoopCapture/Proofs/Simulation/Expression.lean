import LoopCapture.Machine.Expression
import LoopCapture.Proofs.Simulation.Primitives

/-!
# Expressions that match

If two performers carry out parts of expressions with matching ends, so do the rules for whole
expressions. Wrapping leaves the form of every expression as it is, so the rules take the same course
on both sides.
-/

set_option autoImplicit false

namespace LoopCapture

/-- The frames of an iteration whose variable becomes the parameter of a wrapping function. They are
in no pair. -/
structure HeldItem (diff : Difference) (pairing : Pairing) (first second : Machine) (name : String)
    (e e' id id' : FrameId) : Prop where
  frames : ∃ value value', first.frames.frame? id = some ⟨some e, false, [(name, value)]⟩ ∧
    second.frames.frame? id' = some ⟨some e', false, [(name, value')]⟩ ∧
    ValueMatch diff pairing value value'
  unpaired : ∀ d d' link, pairing.frames d d' link → d ≠ id ∧ d' ≠ id'
  unheld : ∀ d d' other, ¬ pairing.frames d d' (.wrapped (some (id, other)))

/-- The second performer does with wrapped code what the first one does with the code as it is. -/
structure Simulates (diff : Difference) (side : Side) (perform perform' : Performer) : Prop where
  eval : ∀ {returns : Bool} {pairing : Pairing} {link : Link} {arguments : Bool} {e e' : FrameId}
    {expr : Expr}, Standing link arguments pairing e e' → Fits.expr diff arguments expr →
    ExecMatch diff side returns (ValueMatch diff) pairing (perform.eval expr e)
      (perform'.eval (WrapLoops.expr diff.chosen expr) e')
  exec : ∀ {position : Position} {pairing : Pairing} {link : Link} {e e' : FrameId} {stmt : Stmt}
    (labels : List String), Standing link position.arguments pairing e e' →
    Fits.stmt diff position stmt →
    ExecMatch diff side position.returns SameResult pairing (perform (.exec stmt e labels))
      (perform' (.exec (WrapLoops.stmt diff.chosen stmt) e' labels))
  invoke : ∀ {returns : Bool} {pairing : Pairing} {function function' this this' : Value}
    {args args' : List Value}, ValueMatch diff pairing function function' →
    ValueMatch diff pairing this this' → ValuesMatch diff pairing args args' →
    ExecMatch diff side returns (ValueMatch diff) pairing (perform.invoke function this args)
      (perform'.invoke function' this' args')
  /-- A wrapped body whose function has no parameter. -/
  body : ∀ {returns : Bool} {pairing : Pairing} {link : Link} {e e' : FrameId} {stmt : Stmt}
    (loc : Loc), Standing link false pairing e e' → Fits.stmt diff .wrapped stmt →
    diff.Moves stmt →
    ExecMatch diff side returns SameResult pairing (perform.exec stmt e)
      (perform'.exec ((WrapLoops.stmt diff.chosen stmt).wrapped loc none) e')
  /-- A wrapped body whose function has the iteration variable for a parameter. -/
  item : ∀ {returns : Bool} {pairing : Pairing} {first second : Machine} {link : Link} {x : Ident}
    {e e' id id' : FrameId} {stmt : Stmt} (loc : Loc), Paired diff pairing first second →
    Standing link false pairing e e' → HeldItem diff pairing first second x.name e e' id id' →
    x.Declarable → Fits.stmt diff .wrapped stmt → diff.Moves stmt →
    OutcomeMatch diff side returns SameResult pairing (perform.exec stmt id first)
      (perform'.exec ((WrapLoops.stmt diff.chosen stmt).wrapped loc (some x)) id' second)

variable {diff : Difference} {side : Side} {returns : Bool} {pairing : Pairing}
  {link : Link} {arguments : Bool} {e e' : FrameId} {value value' : Value}

/-! ## Members -/

namespace ExecMatch

variable {base base' key key' : Value}

theorem arrayMethod {a a' : ArrayId} (pair : pairing.arrays a a') (name : String) :
    ExecMatch diff side returns (ValueMatch diff) pairing (Exec.arrayMethod a name)
      (Exec.arrayMethod a' name) := by
  unfold Exec.arrayMethod
  cases ArrayMethod.ofName? name with
  | none => exact .pure .undefined
  | some method =>
      exact newStamp.bind fun grows _ _ stamps => .pure (.arrayMethod method stamps (grows.arrays pair))

theorem functionMethod (bases : ValueMatch diff pairing base base') (name : String) :
    ExecMatch diff side returns (ValueMatch diff) pairing (Exec.functionMethod base name)
      (Exec.functionMethod base' name) := by
  unfold Exec.functionMethod
  cases FunctionMethod.ofName? name with
  | none => exact .pure .undefined
  | some method =>
      exact newStamp.bind fun grows _ _ stamps => .pure (.functionMethod method stamps (bases.mono grows))

theorem arrayMember {a a' : ArrayId} (pair : pairing.arrays a a')
    (keys : ValueMatch diff pairing key key') :
    ExecMatch diff side returns (ValueMatch diff) pairing (Exec.arrayMember a key)
      (Exec.arrayMember a' key') := by
  unfold Exec.arrayMember
  rw [keys.index?, keys.isLength]
  refine (ofNumber key.index?).bind fun grows index index' same => ?_
  obtain rfl := same
  cases index' with
  | some index =>
      exact (getItems (grows.arrays pair)).bind fun _ items items' both => .pure (both.getD index)
  | none =>
      simp only
      split
      · refine (getItems (grows.arrays pair)).bind fun _ items items' both => ?_
        rw [both.size]
        exact .pure (.number _)
      · refine (display (keys.mono grows)).bind fun further name name' same => ?_
        obtain rfl := same
        exact arrayMethod (further.arrays (grows.arrays pair)) _

theorem textMember (text : String) (keys : ValueMatch diff pairing key key') :
    ExecMatch diff side returns (ValueMatch diff) pairing (Exec.textMember text key)
      (Exec.textMember text key') := by
  unfold Exec.textMember
  rw [keys.index?, keys.isLength]
  refine (ofNumber key.index?).bind fun _ index index' same => ?_
  obtain rfl := same
  cases index' with
  | some index =>
      simp only
      split
      · exact .pure (.text _)
      · exact .pure .undefined
  | none =>
      refine .pure ?_
      split
      · exact .number _
      · exact .undefined

theorem getMember (bases : ValueMatch diff pairing base base')
    (keys : ValueMatch diff pairing key key') :
    ExecMatch diff side returns (ValueMatch diff) pairing (Exec.getMember base key)
      (Exec.getMember base' key') := by
  -- The last rule is for missing values and functions.
  have other {base base' : Value} (bases : ValueMatch diff pairing base base') :
      ExecMatch diff side returns (ValueMatch diff) pairing
        (if base.isMissing then do
          let shownBase ← Exec.display base
          let shownKey ← Exec.display key
          Exec.throwText s!"TypeError: Cannot read properties of {shownBase} (reading '{shownKey}')"
        else do Exec.functionMethod base (← Exec.display key))
        (if base'.isMissing then do
          let shownBase ← Exec.display base'
          let shownKey ← Exec.display key'
          Exec.throwText s!"TypeError: Cannot read properties of {shownBase} (reading '{shownKey}')"
        else do Exec.functionMethod base' (← Exec.display key')) := by
    rw [bases.isMissing]
    split
    · refine (display bases).bind fun grows shown shown' same => ?_
      obtain rfl := same
      refine (display (keys.mono grows)).bind fun _ shown shown' same => ?_
      obtain rfl := same
      exact .throwText _
    · refine (display keys).bind fun grows shown shown' same => ?_
      obtain rfl := same
      exact functionMethod (bases.mono grows) _
  cases bases with
  | array pair => exact arrayMember pair keys
  | text text => exact textMember text keys
  | console stamp =>
      refine (display keys).bind fun grows shown shown' same => .pure ?_
      obtain rfl := same
      split
      · exact .native .log
      · exact .undefined
  | bool _ => exact .pure .undefined
  | number _ => exact .pure .undefined
  | undefined => exact other .undefined
  | null => exact other .null
  | function stamps closures => exact other (.function stamps closures)
  | native value => exact other (.native value)
  | arrayMethod method stamps pair => exact other (.arrayMethod method stamps pair)
  | functionMethod method stamps target => exact other (.functionMethod method stamps target)

theorem refuseMember (bases : ValueMatch diff pairing base base')
    (keys : ValueMatch diff pairing key key') :
    ExecMatch diff side returns SameResult pairing (Exec.refuseMember base key)
      (Exec.refuseMember base' key') := by
  refine (display keys).bind fun grows shown shown' same => ?_
  obtain rfl := same
  refine (display (bases.mono grows)).bind fun _ shown shown' same => ?_
  obtain rfl := same
  exact .throwText _

theorem setMember (bases : ValueMatch diff pairing base base')
    (keys : ValueMatch diff pairing key key') (values : ValueMatch diff pairing value value') :
    ExecMatch diff side returns SameResult pairing (Exec.setMember base key value)
      (Exec.setMember base' key' value') := by
  have refused : ExecMatch diff side returns SameResult pairing (Exec.refuseMember base key)
      (Exec.refuseMember base' key') := refuseMember bases keys
  cases bases with
  | array pair =>
      simp only [Exec.setMember]
      rw [keys.index?, keys.isLength, values.toNumber]
      refine (ofNumber key.index?).bind fun grows index index' same => ?_
      obtain rfl := same
      cases index' with
      | some index =>
          exact modifyItems (grows.arrays pair) fun further items items' both =>
            both.setItem index ((values.mono grows).mono further)
      | none =>
          simp only
          split
          · refine (ofNumber value.toNumber.truncate).bind fun further length length' same => ?_
            obtain rfl := same
            exact modifyItems (further.arrays (grows.arrays pair)) fun _ items items' both =>
              both.shorten _
          · exact refused.later_of grows
  | _ => exact refused

theorem applyBinary (op : BinaryOp) {left left' right right' : Value}
    (lefts : ValueMatch diff pairing left left') (rights : ValueMatch diff pairing right right') :
    ExecMatch diff side returns (ValueMatch diff) pairing (Exec.applyBinary op left right)
      (Exec.applyBinary op left' right') := by
  refine ⟨fun {later first second} grows paired => ?_⟩
  simp only [Exec.applyBinary, Exec.read_bind_run]
  rw [paired.binary (lefts.mono grows) (rights.mono grows) op]
  cases answer : Value.binary first.arrays op left right with
  | error fault => exact .stopped (Pairing.le_refl _) paired (.fault fault)
  | ok result => exact .done (Pairing.le_refl _) paired (.of_binary answer)

end ExecMatch

/-! ## Expressions -/

/-- The function and the `this` of a call. -/
def CalleeMatch (diff : Difference) (pairing : Pairing) (callee callee' : Value × Value) : Prop :=
  ValueMatch diff pairing callee.1 callee'.1 ∧ ValueMatch diff pairing callee.2 callee'.2

instance : Persistent (CalleeMatch diff) :=
  ⟨fun grows both => ⟨both.1.mono grows, both.2.mono grows⟩⟩

private theorem names_ne_this {params : List Ident} (names : ∀ x ∈ params, x.Declarable) :
    ∀ name ∈ params.map Ident.name, name ≠ "this" := by
  intro name inNames
  obtain ⟨x, inParams, rfl⟩ := List.mem_map.mp inNames
  exact names x inParams

theorem ClosureMatch.function (pair : pairing.frames e e' link) {params : List Ident} {body : Block}
    (names : ∀ x ∈ params, x.Declarable) (fits : Fits.block diff (.inFunction true) body) :
    ClosureMatch diff pairing ⟨false, params.map Ident.name, .block body, e⟩
      ⟨false, params.map Ident.name, .block (WrapLoops.block diff.chosen body), e'⟩ where
  isArrow := rfl
  params := rfl
  body := rfl
  frames := ⟨link, pair⟩
  names := names_ne_this names
  fits := ⟨true, fits, nofun⟩
  block := fun _ => ⟨body, rfl⟩

/-- An arrow function, which uses the `arguments` around it unless it declares its own. -/
theorem ClosureMatch.arrow (standing : Standing link arguments pairing e e') {params : List Ident}
    {body : ArrowBody} (names : ∀ x ∈ params, x.Declarable)
    (fits : Fits.arrowBody diff (body.usesArguments diff.rule arguments (params.map Ident.name))
      body) :
    ClosureMatch diff pairing ⟨true, params.map Ident.name, body, e⟩
      ⟨true, params.map Ident.name, WrapLoops.arrowBody diff.chosen body, e'⟩ where
  isArrow := rfl
  params := rfl
  body := rfl
  frames := ⟨link, standing.pair⟩
  names := names_ne_this names
  fits := ⟨_, fits, fun used _ => ((Bool.or_eq_true _ _).mp used).imp_left standing.clear⟩
  block := nofun

namespace Simulates

variable {perform perform' : Performer} (sim : Simulates diff side perform perform')
  (standing : Standing link arguments pairing e e')

include sim standing

theorem evalAll {exprs : List Expr} (fits : Fits.exprs diff arguments exprs) :
    ExecMatch diff side returns (ListResult (ValueMatch diff)) pairing
      (perform.evalAll exprs e) (perform'.evalAll (WrapLoops.exprs diff.chosen exprs) e') := by
  suffices general : ∀ index, ExecMatch diff side returns (ListResult (ValueMatch diff)) pairing
      (Exec.mapItems (fun _ expr => perform.eval expr e) index exprs)
      (Exec.mapItems (fun _ expr => perform'.eval expr e') index (WrapLoops.exprs diff.chosen exprs)) from
    general 0
  induction exprs with
  | nil => exact fun _ => .pure .nil
  | cons expr exprs restIH =>
      intro index
      obtain ⟨fitsHere, fitsRest⟩ := fits
      refine (sim.eval standing fitsHere).bind fun grows value value' values => ?_
      refine (restIH fitsRest (index + 1) |>.later_of grows).bind fun further rest rest' rests => ?_
      exact .pure (.cons (values.mono further) rests)

theorem evalPlace {place : Place} (fits : Fits.place diff arguments place) :
    ExecMatch diff side returns (ValueMatch diff) pairing (Exec.evalPlace perform e place)
      (Exec.evalPlace perform' e' (WrapLoops.place diff.chosen place)) := by
  cases place with
  | ident x => exact .getVariable standing fits
  | member loc object property =>
      exact (sim.eval standing fits).bind fun _ base base' bases => .getMember bases (.text _)
  | index loc object key =>
      refine (sim.eval standing fits.1).bind fun grows base base' bases => ?_
      exact (sim.eval (standing.mono grows) fits.2).bind fun further key key' keys =>
        .getMember (bases.mono further) keys

theorem assign {place : Place} (fits : Fits.place diff arguments place)
    (values : ValueMatch diff pairing value value') :
    ExecMatch diff side returns SameResult pairing (Exec.assign perform e value place)
      (Exec.assign perform' e' value' (WrapLoops.place diff.chosen place)) := by
  cases place with
  | ident x => exact .setVariable standing fits values
  | member loc object property =>
      exact (sim.eval standing fits).bind fun grows base base' bases =>
        .setMember bases (.text _) (values.mono grows)
  | index loc object key =>
      refine (sim.eval standing fits.1).bind fun grows base base' bases => ?_
      exact (sim.eval (standing.mono grows) fits.2).bind fun further key key' keys =>
        .setMember (bases.mono further) keys ((values.mono grows).mono further)

theorem assignedValue (op : AssignOp) {target : Place} {expr : Expr}
    (fitsTarget : Fits.place diff arguments target) (fits : Fits.expr diff arguments expr) :
    ExecMatch diff side returns (ValueMatch diff) pairing
      (Exec.assignedValue perform e op target expr)
      (Exec.assignedValue perform' e' op (WrapLoops.place diff.chosen target)
        (WrapLoops.expr diff.chosen expr)) := by
  cases op with
  | plain => exact sim.eval standing fits
  | combined op =>
      refine (sim.evalPlace standing fitsTarget).bind fun grows current current' currents => ?_
      exact (sim.eval (standing.mono grows) fits).bind fun further value value' values =>
        .applyBinary _ (currents.mono further) values

theorem evalUpdate (op : UpdateOp) (before : Bool) {target : Place}
    (fits : Fits.place diff arguments target) :
    ExecMatch diff side returns (ValueMatch diff) pairing
      (Exec.evalUpdate perform e op before target)
      (Exec.evalUpdate perform' e' op before (WrapLoops.place diff.chosen target)) := by
  refine (sim.evalPlace standing fits).bind fun grows old old' olds => ?_
  simp only [olds.toNumber]
  refine (ExecMatch.ofNumber _).bind fun further new new' same => ?_
  obtain rfl := same
  refine (sim.assign (standing.mono (Pairing.le_trans grows further)) fits
    (.number _)).bind_unit fun _ _ _ => ?_
  exact .pure (.number _)

theorem evalCallee {callee : Expr} (fits : Fits.expr diff arguments callee) :
    ExecMatch diff side returns (CalleeMatch diff) pairing (Exec.evalCallee perform e callee)
      (Exec.evalCallee perform' e' (WrapLoops.expr diff.chosen callee)) := by
  -- A function that is not a member is called without `this`.
  have plain {callee : Expr} (fits : Fits.expr diff arguments callee) :
      ExecMatch diff side returns (CalleeMatch diff) pairing
        (do return (← perform.eval callee e, .undefined))
        (do return (← perform'.eval (WrapLoops.expr diff.chosen callee) e', .undefined)) :=
    (sim.eval standing fits).bind fun _ value value' values => .pure ⟨values, .undefined⟩
  cases callee with
  | place target =>
      cases target with
      | ident x => exact plain fits
      | member loc object property =>
          have fitsObject : Fits.expr diff arguments object := fits
          refine (sim.eval standing fitsObject).bind fun grows this this' both => ?_
          exact (ExecMatch.getMember both (.text _)).bind fun further value value' values =>
            .pure ⟨values, both.mono further⟩
      | index loc object key =>
          refine (sim.eval standing fits.1).bind fun grows this this' both => ?_
          refine (sim.eval (standing.mono grows) fits.2).bind fun further key key' keys => ?_
          refine (ExecMatch.getMember (both.mono further) keys).bind fun last value value' values => ?_
          exact .pure ⟨values, (both.mono further).mono last⟩
  | literal => exact plain fits
  | this => exact plain fits
  | array => exact plain fits
  | function => exact plain fits
  | arrow => exact plain fits
  | call => exact plain fits
  | assign => exact plain fits
  | update => exact plain fits
  | binary => exact plain fits
  | logical => exact plain fits
  | unary => exact plain fits
  | conditional => exact plain fits
  | sequence => exact plain fits

theorem evalCall {callee : Expr} {args : List Expr} (fits : Fits.expr diff arguments callee)
    (fitsArgs : Fits.exprs diff arguments args) (loc : Loc) :
    ExecMatch diff side returns (ValueMatch diff) pairing
      (Exec.evalExpr perform e (.call loc callee args))
      (Exec.evalExpr perform' e' (WrapLoops.expr diff.chosen (.call loc callee args))) := by
  refine (sim.evalCallee standing fits).bind fun grows target target' targets => ?_
  obtain ⟨functions, thiss⟩ := targets
  refine (sim.evalAll (standing.mono grows) fitsArgs).bind fun further args args' both => ?_
  exact sim.invoke (functions.mono further) (thiss.mono further) both

omit sim in
theorem isUnbound {operand : Expr} (fits : Fits.expr diff arguments operand) :
    ExecMatch diff side returns SameResult pairing (Exec.isUnbound e operand)
      (Exec.isUnbound e' (WrapLoops.expr diff.chosen operand)) := by
  cases operand with
  | place target =>
      cases target with
      | ident x =>
          refine .read fun {later first second} grows paired => ?_
          have found := paired.find_match (show x.Usable arguments from fits).1 (grows.frames standing.pair)
            fun isArguments => grows.clear (standing.visible fits isArguments)
          generalize first.frames.find? e x.name = owner at found
          generalize second.frames.find? e' x.name = owner' at found
          cases found with
          | absent => rfl
          | present => rfl
      | _ => exact .pure rfl
  | _ => exact .pure rfl

theorem evalUnary (op : UnaryOp) {operand : Expr} (fits : Fits.expr diff arguments operand) :
    ExecMatch diff side returns (ValueMatch diff) pairing
      (Exec.evalUnary perform e op operand)
      (Exec.evalUnary perform' e' op (WrapLoops.expr diff.chosen operand)) := by
  cases op with
  | typeof =>
      refine (isUnbound standing fits).bind fun grows unbound unbound' same => ?_
      obtain rfl := same
      cases unbound' with
      | true => exact .pure (.text _)
      | false =>
          refine (sim.eval (standing.mono grows) fits).bind fun _ value value' values => ?_
          rw [values.typeOf]
          exact .pure (.text _)
  | not =>
      refine (sim.eval standing fits).bind fun _ value value' values => ?_
      refine (ExecMatch.truthy values).bind fun _ holds holds' same => ?_
      obtain rfl := same
      exact .pure (.bool _)
  | negate =>
      refine (sim.eval standing fits).bind fun _ value value' values => ?_
      rw [values.toNumber]
      exact .pure (.number _)
  | plus =>
      refine (sim.eval standing fits).bind fun _ value value' values => ?_
      rw [values.toNumber]
      exact .pure (.number _)

theorem evalLogical (op : LogicalOp) {left right : Expr} (fitsLeft : Fits.expr diff arguments left)
    (fitsRight : Fits.expr diff arguments right) :
    ExecMatch diff side returns (ValueMatch diff) pairing
      (Exec.evalLogical perform e op left right)
      (Exec.evalLogical perform' e' op (WrapLoops.expr diff.chosen left)
        (WrapLoops.expr diff.chosen right)) := by
  refine (sim.eval standing fitsLeft).bind fun grows value value' values => ?_
  refine (ExecMatch.truthy values).bind fun further holds holds' same => ?_
  obtain rfl := same
  have rest : ExecMatch diff side returns (ValueMatch diff) _ (perform.eval right e)
      (perform'.eval (WrapLoops.expr diff.chosen right) e') :=
    sim.eval (standing.mono (Pairing.le_trans grows further)) fitsRight
  have decided : ExecMatch diff side returns (ValueMatch diff) _ (pure value) (pure value') :=
    .pure (values.mono further)
  cases op with
  | and =>
      cases holds' with
      | false => exact decided
      | true => exact rest
  | or =>
      cases holds' with
      | false => exact rest
      | true => exact decided

theorem evalExpr {expr : Expr} (fits : Fits.expr diff arguments expr) :
    ExecMatch diff side returns (ValueMatch diff) pairing (Exec.evalExpr perform e expr)
      (Exec.evalExpr perform' e' (WrapLoops.expr diff.chosen expr)) := by
  cases expr with
  | place target => exact sim.evalPlace standing fits
  | literal loc value spelling => exact .pure (.ofLiteral value)
  | this loc => exact .getThis standing
  | array loc items =>
      exact (sim.evalAll standing fits).bind fun _ values values' both => .newArray both
  | function loc params body => exact .newFunction (.function standing.pair fits.1 fits.2)
  | arrow loc params body => exact .newFunction (.arrow standing fits.1 fits.2)
  | call loc callee args => exact sim.evalCall standing fits.1 fits.2 loc
  | assign loc op target value =>
      refine (sim.assignedValue standing op fits.1 fits.2).bind fun grows result result' values => ?_
      refine (sim.assign (standing.mono grows) fits.1 values).bind_unit fun further _ _ => ?_
      exact .pure (values.mono further)
  | update loc op before target => exact sim.evalUpdate standing op before fits
  | binary loc op left right =>
      refine (sim.eval standing fits.1).bind fun grows a a' lefts => ?_
      exact (sim.eval (standing.mono grows) fits.2).bind fun further b b' rights =>
        .applyBinary op (lefts.mono further) rights
  | logical loc op left right => exact sim.evalLogical standing op fits.1 fits.2
  | unary loc op operand => exact sim.evalUnary standing op fits
  | conditional loc test yes no =>
      refine (sim.eval standing fits.1).bind fun grows value value' values => ?_
      refine (ExecMatch.truthy values).bind fun further holds holds' same => ?_
      obtain rfl := same
      have standingLater := standing.mono (Pairing.le_trans grows further)
      cases holds' with
      | true => exact sim.eval standingLater fits.2.1
      | false => exact sim.eval standingLater fits.2.2
  | sequence loc items =>
      exact (sim.evalAll standing fits).bind fun _ values values' both =>
        .pure (ValuesMatch.getLastD both)

end Simulates

end LoopCapture
