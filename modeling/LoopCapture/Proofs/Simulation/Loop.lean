import LoopCapture.Machine.Statement
import LoopCapture.Proofs.Simulation.Body

/-!
# Loops that match

The rules for loops and declarations take the same course on both sides, but the body of a chosen
loop is wrapped on the second side. If the wrapping function has a parameter, the frames of the
iteration are not a pair.
-/

set_option autoImplicit false

namespace LoopCapture

variable {diff : Difference} {side : Side} {returns : Bool} {pairing : Pairing}
  {first second : Machine} {link : Link} {arguments : Bool} {e e' : FrameId} {value value' : Value}

theorem ForTarget.of_wrapParam {target : ForTarget} {body : Stmt} {x : Ident}
    (isParam : target.wrapParam body = some x) :
    ∃ loc kind, target = .declared loc kind x ∧ kind.isBlockScoped = true := by
  obtain ⟨isBlockIdent, _⟩ := Option.filter_eq_some_iff.mp isParam
  cases target with
  | existing y => cases isBlockIdent
  | declared loc kind y =>
      simp only [ForTarget.blockIdent?, Option.ite_none_right_eq_some, Option.some.injEq]
        at isBlockIdent
      obtain ⟨isBlock, rfl⟩ := isBlockIdent
      exact ⟨loc, kind, rfl, isBlock⟩

theorem Stmt.wrappedIf_of_not_param {isChosen : Bool} {param : Option Ident}
    (noParam : (isChosen && param.isSome) = false) (loc : Loc) (body : Stmt) :
    body.wrappedIf isChosen loc param = body.wrappedIf isChosen loc none := by
  cases isChosen with
  | false => rfl
  | true =>
      cases param with
      | none => rfl
      | some x => cases noParam

/-! ## Frames of loops -/

/-- The kind of pair that the frames of a `for` loop are: new ones if iterations have copies of the
header's variables. -/
def Link.ofHeader (copies : Bool) (link : Link) : Link := if copies then .same else link

namespace ExecMatch

theorem headerFrame (copies : Bool) (standing : Standing link arguments pairing e e') :
    ExecMatch diff side returns (Standing (link.ofHeader copies) arguments) pairing
      (Exec.headerFrame copies e) (Exec.headerFrame copies e') := by
  cases copies with
  | false => exact .pure standing
  | true => exact .newFrame standing false

theorem nextFrame (copies : Bool) (standing : Standing (link.ofHeader copies) arguments pairing e e') :
    ExecMatch diff side returns (Standing (link.ofHeader copies) arguments) pairing
      (Exec.nextFrame copies e) (Exec.nextFrame copies e') := by
  cases copies with
  | false => exact .pure standing
  | true => exact .copyFrame standing

end ExecMatch

/-! ## Collections -/

/-- What loops on both sides go through. -/
inductive CollectionMatch (diff : Difference) (pairing : Pairing) :
    Exec.Collection → Exec.Collection → Prop where
  | live {a a' : ArrayId} : pairing.arrays a a' → CollectionMatch diff pairing (.live a) (.live a')
  | fixed {items items' : Array Value} : ItemsMatch diff pairing items items' →
      CollectionMatch diff pairing (.fixed items) (.fixed items')

instance : Persistent (CollectionMatch diff) where
  mono := by
    intro _ _ _ _ grows both
    cases both with
    | live pair => exact .live (grows.arrays pair)
    | fixed items => exact .fixed (ValuesMatch.mono grows items)

theorem ItemsMatch.charTexts (text : String) :
    ItemsMatch diff pairing (Exec.charTexts text) (Exec.charTexts text) := by
  refine List.forall₂_same.mpr fun value inTexts => ?_
  obtain ⟨c, _, rfl⟩ := List.mem_map.mp inTexts
  exact .text _

namespace ExecMatch

theorem collectionOf (kind : EachKind) (values : ValueMatch diff pairing value value') :
    ExecMatch diff side returns (CollectionMatch diff) pairing (Exec.collectionOf kind value)
      (Exec.collectionOf kind value') := by
  have other {value value' : Value} (values : ValueMatch diff pairing value value') :
      ExecMatch diff side returns (CollectionMatch diff) pairing
        (if kind = .keys && value.isMissing then return .fixed #[]
        else do
          let shown ← Exec.display value
          Exec.throwText s!"TypeError: {shown} is not iterable")
        (if kind = .keys && value'.isMissing then return .fixed #[]
        else do
          let shown ← Exec.display value'
          Exec.throwText s!"TypeError: {shown} is not iterable") := by
    rw [values.isMissing]
    split
    · exact .pure (.fixed .nil)
    · refine (display values).bind fun _ shown shown' same => ?_
      obtain rfl := same
      exact .throwText _
  cases values with
  | array pair => exact .pure (.live pair)
  | text text => exact .pure (.fixed (.charTexts text))
  | undefined => exact other .undefined
  | null => exact other .null
  | bool value => exact other (.bool value)
  | number value => exact other (.number value)
  | function stamps closures => exact other (.function stamps closures)
  | native value => exact other (.native value)
  | arrayMethod method stamps pair => exact other (.arrayMethod method stamps pair)
  | functionMethod method stamps target => exact other (.functionMethod method stamps target)
  | console stamp => exact other (.console stamp)

theorem itemAt (kind : EachKind) {collection collection' : Exec.Collection}
    (collections : CollectionMatch diff pairing collection collection') (index : Nat) :
    ExecMatch diff side returns (OptionResult (ValueMatch diff)) pairing
      (Exec.itemAt kind collection index) (Exec.itemAt kind collection' index) := by
  have items : ExecMatch diff side returns (ItemsMatch diff) pairing collection.items
      collection'.items := by
    cases collections with
    | live pair => exact getItems pair
    | fixed items => exact ⟨fun grows paired =>
        .done (Pairing.le_refl _) paired (ValuesMatch.mono grows items)⟩
  refine items.bind fun _ items items' both => .pure ?_
  have slots := both.getElem? index
  generalize items[index]? = slot at slots
  generalize items'[index]? = slot' at slots
  cases slots with
  | none => exact .none
  | some values =>
      cases kind with
      | keys => exact .some (.text _)
      | values => exact .some values

/-- The frames of an iteration, if they are a pair. -/
theorem bindItem (standing : Standing link arguments pairing e e') {target : ForTarget}
    (usable : target.ident.Usable (target.blockIdent?.isSome || arguments))
    (plain : diff = .scoping → target.blockIdent? = none)
    (values : ValueMatch diff pairing value value') :
    ExecMatch diff side returns (fun pairing i i' => ∃ link, Standing link arguments pairing i i')
      pairing (Exec.bindItem diff.rule e value target) (Exec.bindItem .block e' value' target) := by
  have assigned (x : Ident) (usable : x.Usable arguments) : ExecMatch diff side returns
      (fun pairing i i' => ∃ link, Standing link arguments pairing i i') pairing
      (do
        Exec.setVariable e x.name value
        return e)
      (do
        Exec.setVariable e' x.name value'
        return e') :=
    (setVariable standing usable values).bind_unit fun grows _ _ =>
      ⟨fun further paired => .done (Pairing.le_refl _) paired
        ⟨link, (standing.mono grows).mono further⟩⟩
  cases target with
  | existing x => exact assigned x usable
  | declared loc kind x =>
      have allowed : diff.Allows kind := by
        intro isScoping
        simpa [ForTarget.blockIdent?] using plain isScoping
      rw [Exec.bindItem, Exec.bindItem, allowed.inBlock, Scoping.inBlock]
      cases isBlock : kind.isBlockScoped with
      | false =>
          have notBlock : (ForTarget.declared loc kind x).blockIdent?.isSome = false := by
            simp [ForTarget.blockIdent?, isBlock]
          rw [notBlock, Bool.false_or] at usable
          exact assigned x usable
      | true =>
          refine (newFrame standing false).bind fun grows inner inner' inners => ?_
          refine (define inners (by simp) usable.1 (values.mono grows)).bind_unit
            fun further _ _ => ?_
          exact ⟨fun last paired => .done (Pairing.le_refl _) paired
            ⟨.same, (inners.mono further).mono last⟩⟩

end ExecMatch

theorem Exec.bindItem_run {kind : DeclKind} (isBlock : kind.isBlockScoped = true) {loc : Loc}
    {x : Ident} {machine : Machine} :
    Exec.bindItem .block e value (.declared loc kind x) machine =
      .done machine.frames.all.size
        { machine with frames := (machine.frames.add ⟨some e, false, [(x.name, value)]⟩).1 } := by
  simp only [Exec.bindItem, Scoping.inBlock, isBlock]
  exact congrArg (fun frames => Outcome.done machine.frames.all.size { machine with frames := frames })
    (Frames.define_add machine.frames ⟨some e, false, []⟩ x.name value)

/-- Frames of an iteration that are not a pair. -/
theorem Paired.holdItem (paired : Paired diff pairing first second)
    (pair : pairing.frames e e' link) (name : String)
    (values : ValueMatch diff pairing value value') :
    let first' := { first with
      frames := (first.frames.add ⟨some e, false, [(name, value)]⟩).1 }
    let second' := { second with
      frames := (second.frames.add ⟨some e', false, [(name, value')]⟩).1 }
    Paired diff pairing first' second' ∧
      HeldItem diff pairing first' second' name e e' first.frames.all.size
        second.frames.all.size := by
  have below := paired.first_lt pair
  have below' := paired.second_lt pair
  constructor
  · refine (paired.addFrame_first fun parent isParent => ?_).addFrame_second fun parent isParent => ?_
    · exact Option.some.inj isParent ▸ below
    · exact Option.some.inj isParent ▸ below'
  · refine ⟨⟨value, value', ?_, ?_, values⟩, fun d d' k other => ?_, fun d d' other held => ?_⟩
    · exact Frames.frame?_add_new ..
    · exact Frames.frame?_add_new ..
    · exact ⟨Nat.ne_of_lt (paired.first_lt other), Nat.ne_of_lt (paired.second_lt other)⟩
    · exact Nat.lt_irrefl _ (paired.holder_lt held)

theorem copiesHeader_forInit : ∀ {init : Option ForInit}, Fits.forInit diff arguments init →
    Exec.copiesHeader .block (WrapLoops.forInit diff.chosen init) =
      Exec.copiesHeader diff.rule init
  | none, _ => rfl
  | some (.declaration (.mk _ _ _)), fits => (fits.1.inBlock).symm
  | some (.expr _), _ => rfl

namespace Simulates

variable {perform perform' : Performer} (sim : Simulates diff side perform perform')
variable {position : Position} {isChosen : Bool} {body : Stmt}

include sim

/-! ## Declarations -/

theorem declareAll {inBlock : Bool} (standing : Standing link arguments pairing e e')
    (allowed : diff = .scoping → inBlock = false) {items : List Declarator}
    (fits : Fits.declarators diff inBlock arguments items) :
    ExecMatch diff side returns SameResult pairing (Exec.declareAll inBlock perform e items)
      (Exec.declareAll inBlock perform' e' (WrapLoops.declarators diff.chosen items)) := by
  induction items generalizing pairing with
  | nil => exact .pure rfl
  | cons item items restIH =>
      obtain ⟨loc, x, init⟩ := item
      obtain ⟨usable, fitsInit, fitsRest⟩ := fits
      suffices one : ExecMatch diff side returns SameResult pairing
          (Exec.declareOne inBlock perform e (.mk loc x init))
          (Exec.declareOne inBlock perform' e' (.mk loc x (WrapLoops.exprOption diff.chosen init))) from
        one.bind_unit fun grows _ _ => restIH (standing.mono grows) fitsRest
      cases inBlock with
      | true =>
          have solid : diff = .scoping → link ≠ .blank := fun isScoping => nomatch allowed isScoping
          cases init with
          | none => exact .define standing solid usable.1 .undefined
          | some init =>
              exact (sim.eval standing fitsInit).bind fun grows value value' values =>
                .define (standing.mono grows) solid usable.1 values
      | false =>
          cases init with
          | none => exact .pure rfl
          | some init =>
              exact (sim.eval standing fitsInit).bind fun grows value value' values =>
                .setVariable (standing.mono grows) usable values

theorem declare (standing : Standing link arguments pairing e e') {item : Declaration}
    (fits : Fits.declaration diff arguments item) :
    ExecMatch diff side returns SameResult pairing (Exec.declare diff.rule perform e item)
      (Exec.declare .block perform' e' (WrapLoops.declaration diff.chosen item)) := by
  obtain ⟨loc, kind, items⟩ := item
  have same : diff.rule.inBlock kind = kind.isBlockScoped := fits.1.inBlock
  simp only [Exec.declare, Declaration.kind, same]
  exact sim.declareAll standing fits.1 fits.2

/-! ## Loops -/

theorem holds (standing : Standing link arguments pairing e e') {test : Expr}
    (fits : Fits.expr diff arguments test) :
    ExecMatch diff side returns SameResult pairing (Exec.holds perform e test)
      (Exec.holds perform' e' (WrapLoops.expr diff.chosen test)) :=
  (sim.eval standing fits).bind fun _ _ _ values => .truthy values

/-- The body of a loop, wrapped without a parameter if the loop is chosen. -/
theorem loopBody (standing : Standing link position.arguments pairing e e') (loc : Loc)
    (fits : Fits.stmt diff (if isChosen then .wrapped else position) body)
    (whole : isChosen = true → diff.Moves body) :
    ExecMatch diff side position.returns SameResult pairing (perform.exec body e)
      (perform'.exec ((WrapLoops.stmt diff.chosen body).wrappedIf isChosen loc none) e') := by
  cases isChosen with
  | false => exact sim.exec [] standing fits
  | true => exact sim.body loc (.of_pair standing.pair) fits (whole rfl)

theorem execInit (standing : Standing link arguments pairing e e') {init : Option ForInit}
    (fits : Fits.forInit diff arguments init) :
    ExecMatch diff side returns SameResult pairing (Exec.execInit diff.rule perform e init)
      (Exec.execInit .block perform' e' (WrapLoops.forInit diff.chosen init)) := by
  match init, fits with
  | none, _ => exact .pure rfl
  | some (.declaration _), fits => exact sim.declare standing fits
  | some (.expr _), fits => exact (sim.eval standing fits).bind_unit fun _ _ _ => .pure rfl

theorem goesOn (standing : Standing link arguments pairing e e') {test : Option Expr}
    (fits : Fits.exprOption diff arguments test) :
    ExecMatch diff side returns SameResult pairing (Exec.goesOn perform e test)
      (Exec.goesOn perform' e' (WrapLoops.exprOption diff.chosen test)) := by
  cases test with
  | none => exact .pure rfl
  | some test => exact sim.holds standing fits

theorem evalOption (standing : Standing link arguments pairing e e') {expr : Option Expr}
    (fits : Fits.exprOption diff arguments expr) :
    ExecMatch diff side returns SameResult pairing (Exec.evalOption perform e expr)
      (Exec.evalOption perform' e' (WrapLoops.exprOption diff.chosen expr)) := by
  cases expr with
  | none => exact .pure rfl
  | some expr => exact (sim.eval standing fits).bind_unit fun _ _ _ => .pure rfl

theorem eachIteration (standing : Standing link position.arguments pairing e e')
    (labels : List String) (loc : Loc) {target : ForTarget}
    (usable : target.ident.Usable (target.blockIdent?.isSome || position.arguments))
    (plain : diff = .scoping → target.blockIdent? = none)
    (fits : Fits.stmt diff (if diff.chosen loc then .wrapped else position) body)
    (whole : diff.chosen loc = true → diff.Moves body)
    (values : ValueMatch diff pairing value value') :
    ExecMatch diff side position.returns SameResult pairing
      (Exec.bindItem diff.rule e value target >>= fun inner =>
        Exec.iteration labels (perform.exec body inner))
      (Exec.bindItem .block e' value' target >>= fun inner =>
        Exec.iteration labels (perform'.exec
          ((WrapLoops.stmt diff.chosen body).wrappedIf (diff.chosen loc) loc (target.wrapParam body))
          inner)) := by
  cases isParam : diff.chosen loc && (target.wrapParam body).isSome with
  | false =>
      rw [Stmt.wrappedIf_of_not_param isParam]
      refine (ExecMatch.bindItem standing usable plain values).bind fun _ inner inner' inners => ?_
      obtain ⟨link, inners⟩ := inners
      exact (sim.loopBody inners loc fits whole).iteration labels
  | true =>
      rw [Bool.and_eq_true, Option.isSome_iff_exists] at isParam
      obtain ⟨isChosen, x, isParam⟩ := isParam
      obtain ⟨loc', kind, rfl, isBlock⟩ := ForTarget.of_wrapParam isParam
      rw [isChosen] at fits
      refine ⟨fun {later first second} grows paired => ?_⟩
      rw [(whole isChosen).rule, Exec.bind_run_done (Exec.bindItem_run isBlock),
        Exec.bind_run_done (Exec.bindItem_run isBlock), isParam, isChosen]
      obtain ⟨pairedItem, held⟩ := paired.holdItem (grows.frames standing.pair) x.name
        (values.mono grows)
      exact (sim.item loc pairedItem (.of_pair (grows.frames standing.pair)) held usable.1 fits
        (whole isChosen)).iteration labels

variable {fuel fuel' : Nat} (rounds : side.Rounds fuel fuel')

include rounds

section Plain

variable (standing : Standing link position.arguments pairing e e') (labels : List String) (loc : Loc)
  (fits : Fits.stmt diff (if isChosen then .wrapped else position) body)
  (whole : isChosen = true → diff.Moves body)

include standing fits whole

theorem execWhile {test : Expr} (fitsTest : Fits.expr diff position.arguments test) :
    ExecMatch diff side position.returns SameResult pairing
      (Exec.execWhile fuel perform e labels test body)
      (Exec.execWhile fuel' perform' e' labels (WrapLoops.expr diff.chosen test)
        ((WrapLoops.stmt diff.chosen body).wrappedIf isChosen loc none)) := by
  refine ExecMatch.iterate (fun grows state state' _ => ?_) rounds (show SameResult pairing () () from rfl)
  refine (sim.holds (standing.mono grows) fitsTest).branch (fun _ => .pure .none) fun further => ?_
  have standingLater := standing.mono (Pairing.le_trans grows further)
  exact (sim.loopBody standingLater loc fits whole |>.iteration labels).branch
    (fun _ => .pure .none) fun _ => .pure (.some rfl)

theorem execDoWhile {test : Expr} (fitsTest : Fits.expr diff position.arguments test) :
    ExecMatch diff side position.returns SameResult pairing
      (Exec.execDoWhile fuel perform e labels body test)
      (Exec.execDoWhile fuel' perform' e' labels
        ((WrapLoops.stmt diff.chosen body).wrappedIf isChosen loc none)
        (WrapLoops.expr diff.chosen test)) := by
  refine ExecMatch.iterate (fun grows state state' _ => ?_) rounds (show SameResult pairing () () from rfl)
  refine (sim.loopBody (standing.mono grows) loc fits whole |>.iteration labels).branch
    (fun _ => .pure .none) fun further => ?_
  have standingLater := standing.mono (Pairing.le_trans grows further)
  exact (sim.holds standingLater fitsTest).branch (fun _ => .pure .none) fun _ => .pure (.some rfl)

theorem execFor {init : Option ForInit} {test change : Option Expr}
    (fitsInit : Fits.forInit diff position.arguments init)
    (fitsTest : Fits.exprOption diff position.arguments test)
    (fitsChange : Fits.exprOption diff position.arguments change) :
    ExecMatch diff side position.returns SameResult pairing
      (Exec.execFor diff.rule fuel perform e labels init test change body)
      (Exec.execFor .block fuel' perform' e' labels (WrapLoops.forInit diff.chosen init)
        (WrapLoops.exprOption diff.chosen test) (WrapLoops.exprOption diff.chosen change)
        ((WrapLoops.stmt diff.chosen body).wrappedIf isChosen loc none)) := by
  unfold Exec.execFor
  rw [copiesHeader_forInit fitsInit]
  refine (ExecMatch.headerFrame _ standing).bind fun _ header header' headers => ?_
  refine (sim.execInit headers fitsInit).bind_unit fun grows _ _ => ?_
  refine (ExecMatch.nextFrame _ (headers.mono grows)).bind fun _ start start' starts => ?_
  refine ExecMatch.iterate (fun grows current current' currents => ?_) rounds starts
  refine (sim.goesOn currents fitsTest).branch (fun _ => .pure .none) fun further => ?_
  refine (sim.loopBody (currents.mono further) loc fits whole |>.iteration labels).branch
    (fun _ => .pure .none) fun last => ?_
  refine (ExecMatch.nextFrame _ ((currents.mono further).mono last)).bind
    fun _ next next' nexts => ?_
  exact (sim.evalOption nexts fitsChange).bind_unit fun grows _ _ =>
    .pure (.some (nexts.mono grows))

end Plain

theorem execForEach (standing : Standing link position.arguments pairing e e')
    (labels : List String) (kind : EachKind) (loc : Loc) {target : ForTarget} {subject : Expr}
    (usable : target.ident.Usable (target.blockIdent?.isSome || position.arguments))
    (plain : diff = .scoping → target.blockIdent? = none)
    (fitsSubject : Fits.expr diff position.arguments subject)
    (fits : Fits.stmt diff (if diff.chosen loc then .wrapped else position) body)
    (whole : diff.chosen loc = true → diff.Moves body) :
    ExecMatch diff side position.returns SameResult pairing
      (Exec.execForEach diff.rule fuel perform e labels kind target subject body)
      (Exec.execForEach .block fuel' perform' e' labels kind target
        (WrapLoops.expr diff.chosen subject)
        ((WrapLoops.stmt diff.chosen body).wrappedIf (diff.chosen loc) loc
          (target.wrapParam body))) := by
  refine (sim.eval standing fitsSubject).bind fun grows value value' values => ?_
  refine (ExecMatch.collectionOf kind values).bind fun further collection collection' both => ?_
  have grows := Pairing.le_trans grows further
  refine ExecMatch.iterate (fun {later} further index index' same => ?_) rounds
    (show SameResult _ 0 0 from rfl)
  obtain rfl := same
  refine (ExecMatch.itemAt kind (Persistent.mono further both) _).bind
    fun last item item' items => ?_
  have standingLater := standing.mono (Pairing.le_trans grows (Pairing.le_trans further last))
  cases items with
  | none => exact .pure .none
  | some values =>
      refine (sim.eachIteration standingLater labels loc usable plain fits whole values).bind_nested
        fun _ goes goes' same => .pure ?_
      obtain rfl := same
      cases goes' with
      | false => exact .none
      | true => exact .some rfl

end Simulates

end LoopCapture
