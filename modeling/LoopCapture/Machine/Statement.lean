import LoopCapture.Machine.Activity

/-!
Execution of statements.
-/

set_option autoImplicit false

namespace LoopCapture.Exec

/-- The frame for a block: a new one if blocks have variables of their own. -/
def blockFrame (scoping : Scoping) (frame : FrameId) : Exec FrameId :=
  match scoping with
  | .function => return frame
  | .block => newFrame frame false

/-! ## Declarations -/

def declareOne (inBlock : Bool) (perform : Performer) (frame : FrameId) (declarator : Declarator) :
    Exec Unit :=
  match inBlock, declarator.init with
  | true, none => define frame declarator.ident.name .undefined
  | true, some init => do define frame declarator.ident.name (← perform.eval init frame)
  | false, none => return ()
  | false, some init => do setVariable frame declarator.ident.name (← perform.eval init frame)

def declareAll (inBlock : Bool) (perform : Performer) (frame : FrameId) :
    List Declarator → Exec Unit
  | [] => return ()
  | declarator :: rest => do
    declareOne inBlock perform frame declarator
    declareAll inBlock perform frame rest

def declare (scoping : Scoping) (perform : Performer) (frame : FrameId)
    (declaration : Declaration) : Exec Unit :=
  declareAll (scoping.inBlock declaration.kind) perform frame declaration.declarators

/-! ## Loops -/

def holds (perform : Performer) (frame : FrameId) (test : Expr) : Exec Bool := do
  truthy (← perform.eval test frame)

def execWhile (fuel : Nat) (perform : Performer) (frame : FrameId) (labels : List String)
    (test : Expr) (body : Stmt) : Exec Unit :=
  let step (_ : Unit) : Exec (Option Unit) := do
    if ← holds perform frame test then
      return if ← iteration labels (perform.exec body frame) then some () else none
    else return none
  iterate fuel step ()

def execDoWhile (fuel : Nat) (perform : Performer) (frame : FrameId) (labels : List String)
    (body : Stmt) (test : Expr) : Exec Unit :=
  let step (_ : Unit) : Exec (Option Unit) := do
    if ← iteration labels (perform.exec body frame) then
      return if ← holds perform frame test then some () else none
    else return none
  iterate fuel step ()

/-- Whether each iteration of a `for` loop has its own copy of the variables in the header. -/
def copiesHeader (scoping : Scoping) : Option ForInit → Bool
  | some (.declaration declaration) => scoping.inBlock declaration.kind
  | _ => false

def headerFrame (copies : Bool) (frame : FrameId) : Exec FrameId :=
  if copies then newFrame frame false else return frame

def nextFrame (copies : Bool) (frame : FrameId) : Exec FrameId :=
  if copies then copyFrame frame else return frame

def execInit (scoping : Scoping) (perform : Performer) (frame : FrameId) :
    Option ForInit → Exec Unit
  | none => return ()
  | some (.declaration declaration) => declare scoping perform frame declaration
  | some (.expr value) => do let _ ← perform.eval value frame

/-- Whether a `for` loop goes on; without a test it does. -/
def goesOn (perform : Performer) (frame : FrameId) : Option Expr → Exec Bool
  | none => return true
  | some test => holds perform frame test

def evalOption (perform : Performer) (frame : FrameId) : Option Expr → Exec Unit
  | none => return ()
  | some value => do let _ ← perform.eval value frame

def execFor (scoping : Scoping) (fuel : Nat) (perform : Performer) (frame : FrameId)
    (labels : List String) (init : Option ForInit) (test change : Option Expr) (body : Stmt) :
    Exec Unit := do
  let copies := copiesHeader scoping init
  let header ← headerFrame copies frame
  execInit scoping perform header init
  let step (current : FrameId) : Exec (Option FrameId) := do
    if ← goesOn perform current test then
      if ← iteration labels (perform.exec body current) then
        let next ← nextFrame copies current
        evalOption perform next change
        return some next
      else return none
    else return none
  iterate fuel step (← nextFrame copies header)

/-- What a loop goes through: the items of an array as they are at the time, or given items. -/
inductive Collection where
  | live (array : ArrayId)
  | fixed (items : Array Value)

def charTexts (text : String) : Array Value :=
  (text.toList.map fun c => Value.text (String.singleton c)).toArray

/-- The collection that a value is. A loop over the keys of a missing value has nothing to do. -/
def collectionOf (kind : EachKind) : Value → Exec Collection
  | .array array => return .live array
  | .text text => return .fixed (charTexts text)
  | other => do
    if kind = .keys && other.isMissing then return .fixed #[]
    else
      let shown ← display other
      throwText s!"TypeError: {shown} is not iterable"

def Collection.items : Collection → Exec (Array Value)
  | .live array => getItems array
  | .fixed items => return items

/-- The key or the value at a position of a collection, if the collection has as many items. -/
def itemAt (kind : EachKind) (collection : Collection) (index : Nat) : Exec (Option Value) := do
  let item := (← collection.items)[index]?
  return item.map fun value =>
    match kind with
    | .keys => .text (toString index)
    | .values => value

/-- Assigns an item to the variable of a loop over a collection; the answer is the frame for the
body. -/
def bindItem (scoping : Scoping) (frame : FrameId) (value : Value) : ForTarget → Exec FrameId
  | .declared _ kind ident => do
    if scoping.inBlock kind then
      let inner ← newFrame frame false
      define inner ident.name value
      return inner
    else
      setVariable frame ident.name value
      return frame
  | .existing ident => do
    setVariable frame ident.name value
    return frame

/-- Executes a loop over a collection. Items that the body adds are visited too. -/
def execForEach (scoping : Scoping) (fuel : Nat) (perform : Performer) (frame : FrameId)
    (labels : List String) (kind : EachKind) (target : ForTarget) (subject : Expr) (body : Stmt) :
    Exec Unit := do
  let collection ← collectionOf kind (← perform.eval subject frame)
  let step (index : Nat) : Exec (Option Nat) := do
    match ← itemAt kind collection index with
    | none => return none
    | some value =>
      let inner ← bindItem scoping frame value target
      return if ← iteration labels (perform.exec body inner) then some (index + 1) else none
  iterate fuel step 0

/-! ## Exceptions and cases -/

/-- Executes a `try` statement. The caught value is always a variable of its own frame. -/
def execTry (perform : Performer) (frame : FrameId) (block : Block) (handler : Option CatchClause)
    (finalizer : Option Block) : Exec Unit :=
  let body := perform.exec (.block block) frame
  let handled := match handler with
    | none => body
    | some clause => catchThrow body fun value => do
      let inner ← newFrame frame false
      define inner clause.param.name value
      perform.exec (.block clause.body) inner
  match finalizer with
  | none => handled
  | some last => andFinally handled (perform.exec (.block last) frame)

/-- The cases from the first one on whose test equals a value. -/
def matchingCases (perform : Performer) (frame : FrameId) (value : Value) :
    List Case → Exec (List Case)
  | [] => return []
  | .mk _ none _ :: rest => matchingCases perform frame value rest
  | .mk loc (some test) body :: rest => do
    if value.strictEquals (← perform.eval test frame) then
      return .mk loc (some test) body :: rest
    else matchingCases perform frame value rest

/-- The cases to run: the matching ones, or else those from the default case on. -/
def selectCases (cases : List Case) : List Case → List Case
  | [] => cases.dropWhile (·.test.isSome)
  | matching => matching

def execSwitch (scoping : Scoping) (perform : Performer) (frame : FrameId) (subject : Expr)
    (cases : List Case) : Exec Unit := do
  let value ← perform.eval subject frame
  let inner ← blockFrame scoping frame
  declareFunctions inner (cases.flatMap Case.body)
  let selected := selectCases cases (← matchingCases perform inner value cases)
  catchBreak none (perform.execAll inner (selected.flatMap Case.body))

/-! ## Statements -/

/-- The labels of the statement under a label; only loops and labelled statements have labels. -/
def labelsUnder (labels : List String) (label : Ident) : Stmt → List String
  | .labeled .. => labels ++ [label.name]
  | body => if body.isLoop then labels ++ [label.name] else []

def execStmt (scoping : Scoping) (fuel : Nat) (perform : Performer) (frame : FrameId)
    (labels : List String) : Stmt → Exec Unit
  | .declaration d => declare scoping perform frame d
  | .function .. => return ()
  | .block block => do execBlock perform (← blockFrame scoping frame) block.body
  | .expr _ value => do let _ ← perform.eval value frame
  | .empty _ => return ()
  | .ifElse _ test yes no => do
    if ← holds perform frame test then perform.exec yes frame
    else match no with
      | none => return ()
      | some stmt => perform.exec stmt frame
  | .forLoop _ init test change body =>
    execFor scoping fuel perform frame labels init test change body
  | .forEach _ kind target subject body =>
    execForEach scoping fuel perform frame labels kind target subject body
  | .whileLoop _ test body => execWhile fuel perform frame labels test body
  | .doWhile _ body test => execDoWhile fuel perform frame labels body test
  | .returns _ none => stop (.jump (.returns .undefined))
  | .returns _ (some value) => do stop (.jump (.returns (← perform.eval value frame)))
  | .breaks _ label => stop (.jump (.breaks (label.map Ident.name)))
  | .continues _ label => stop (.jump (.continues (label.map Ident.name)))
  | .throws _ value => do throwValue (← perform.eval value frame)
  | .tryCatch _ block handler finalizer => execTry perform frame block handler finalizer
  | .switch _ subject cases => execSwitch scoping perform frame subject cases
  | .labeled _ label body =>
    catchBreak (some label.name) (perform (.exec body frame (labelsUnder labels label body)))

end LoopCapture.Exec
