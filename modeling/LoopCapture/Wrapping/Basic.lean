import LoopCapture.Insertions
import LoopCapture.Options
import LoopCapture.Scope.Resolution
import LoopCapture.Wrapping.Obstacle

/-!
Wrapping loop bodies in functions.

Once all variables belong to functions, a closure made in a loop that captures a block scoped
variable of the loop shares it with the closures of the other iterations. Where the body of the
loop can be moved into a function that is called in each iteration, the pass does so, by insertions
into the text, and brings the scopes up to date. The iteration variable of a loop over a collection
becomes a parameter of that function. Other captures are reported.
-/

set_option autoImplicit false

namespace LoopCapture

structure Wrapping where
  outline : Outline
  insertions : Insertions
  resolution : Resolution
  /-- The loops, by the numbers of their nodes, whose bodies have been wrapped. -/
  wrapped : List Nat

namespace Wrapping

def ofOutline (source : List Char) (outline : Outline) : Wrapping :=
  ⟨outline, .ofSource source, .ofOutline outline, []⟩

/-! ## Captures -/

/-- A reference in a closure to a block scoped variable of a loop around the closure. -/
structure Capture where
  ref : Node
  name : String
  loop : Node
  /-- The identifier that declares the variable. -/
  declaration : Node
  /-- Whether the scope of the variable belongs to the loop itself. -/
  inHeader : Bool

def crossesFunction (arena : Arena) (scope outer : ScopeId) : Bool :=
  let first := (arena.ancestors scope).find? fun id =>
    id == outer || (arena.get? id).any (·.owner.node.isFunction)
  first.any (· != outer)

/-- The capture that a node is, unless its loop has been wrapped. -/
def capture? (state : Wrapping) (ref : Node) : Option Capture := do
  guard ref.isReference
  let name ← ref.name?
  let declaringId ← state.resolution.declaredIn? ref
  let refScope ← state.resolution.scope? ref
  guard (declaringId != refScope)
  let declaring ← state.resolution.arena.get? declaringId
  let binding ← declaring.bindings.get? name
  guard binding.kind.isBlockScoped
  let loop ← declaring.owner.enclosingLoop?
  guard (!state.wrapped.contains loop.id)
  guard (crossesFunction state.resolution.arena refScope declaringId)
  return ⟨ref, name, loop, binding.ident, declaring.owner.node.id == loop.id⟩

/-! ## Wrapping a loop -/

structure Target where
  loop : Site
  body : Outline
  /-- The iteration variable that becomes a parameter. -/
  param : Option Node
  /-- The scope of the body, if the body is a block. -/
  bodyScope : Option ScopeId

def opens (arena : Arena) (site : Site) (id : ScopeId) : Bool :=
  (arena.get? id).any (·.owner.node.id == site.node.id)

/-- The parts of a loop. A declaration in the body hides an iteration variable of the same name. -/
def target? (state : Wrapping) (loop : Outline) : Option Target := do
  let body ← loop.loopBody?
  let scope ← state.resolution.scope? body.label.node
  let arena := state.resolution.arena
  let bodyScope :=
    if body.label.node.form = .block && opens arena body.label scope then some scope else none
  let param := (loop.iterationVariable?.map Site.node).filter fun ident =>
    !bodyScope.any fun id => arena.declares id (ident.name?.getD "")
  return ⟨loop.label, body, param, bodyScope⟩

namespace Target

def bounds (target : Target) : Nat × Nat :=
  let node := target.body.label.node
  if node.form = .block then (node.loc.start + 1, node.loc.stop - 1)
  else (node.loc.start, node.loc.stop)

def head (target : Target) : String :=
  let name := (target.param.bind Node.name?).getD ""
  "(function(" ++ name ++ ")\x7b"

def foot (target : Target) (insertions : Insertions) : String :=
  let arg := match target.param with
    | none => ""
    | some ident => ", " ++ insertions.textOf ident.loc.start ident.loc.stop
  "\x7d).call(this" ++ arg ++ ");"

/-- The insertions that wrap the body. Where several loops end, the inner one is closed first. -/
def insert (target : Target) (insertions : Insertions) : Insertions :=
  let (headAt, footAt) := target.bounds
  let foot := target.foot insertions
  (insertions.place headAt ⟨target.head, 0, true, true⟩).place footAt
    ⟨foot, -(target.loop.loopDepth : Int), true, true⟩

end Target

/-- Adds a scope that hoists for a body without braces, and moves the scopes and the nodes of the
body into it. -/
def wrapScope (resolution : Resolution) (body : Outline) (scope : ScopeId) : Resolution × ScopeId :=
  let arena := resolution.arena
  let prior :=
    if opens arena body.label scope then ((arena.get? scope).bind Scope.parent).getD scope else scope
  let children := ((arena.get? prior).map Scope.children).getD []
  let (grown, id) := arena.add .hoist body.label (some prior)
  let inside (child : ScopeId) : Bool :=
    (arena.get? child).any (·.owner.node.loc.within body.label.node.loc)
  let moved := (children.filter inside).foldl (fun arena child => arena.reparent child id) grown
  let scopeOf := body.sites.foldl
    (fun scopeOf site => scopeOf.modify site.node.id fun old => if old = prior then id else old)
    resolution.scopeOf
  ({ resolution with arena := moved, scopeOf := scopeOf }, id)

def wrapperScope (resolution : Resolution) (target : Target) : Resolution × ScopeId :=
  match target.bodyScope with
  | some id => ({ resolution with arena := resolution.arena.setKind id .hoist }, id)
  | none =>
    wrapScope resolution target.body ((resolution.scope? target.body.label.node).getD 0)

def declareParam (arena : Arena) (wrapper : ScopeId) : Option Node → Arena
  | none => arena
  | some ident =>
    let name := ident.name?.getD ""
    if arena.declares wrapper name then arena else arena.declare wrapper name ⟨.param, ident⟩

/-- Wraps the body of a loop for the sake of a reference, which then refers to the scope of the
function around the body. That scope is given too. -/
def wrap (state : Wrapping) (target : Target) (ref : Node) : Wrapping × ScopeId :=
  let (resolution, wrapper) := wrapperScope state.resolution target
  let resolution := { resolution with
    arena := declareParam resolution.arena wrapper target.param
    declaredIn := resolution.declaredIn.modify ref.id fun _ => some wrapper }
  ({ state with
    insertions := target.insert state.insertions
    resolution := resolution
    wrapped := state.wrapped ++ [target.loop.node.id] }, wrapper)

/-! ## The pass -/

inductive Verdict where
  | report (diagnostic : Diagnostic)
  | wrap (target : Target)

def problem (node : Node) (code message : String) : Diagnostic :=
  { message := message, code := some code, phase := some "transform", span := node.loc.span none }

/-- What the pass does about a capture. Variables in the header of a `for` loop with three parts
change from iteration to iteration, so such a loop is not wrapped for them. -/
def verdict? (state : Wrapping) (mode : Mode) (capture : Capture) : Option Verdict := do
  match mode with
  | .report =>
    return .report (problem capture.ref "E-LOOP-CLOSURE"
      s!"can't transform closure: {capture.name} is defined outside closure, inside loop")
  | .wrap =>
    if capture.loop.form = .loop .forLoop && capture.inHeader then
      return .report (problem capture.declaration "E-UNSUPPORTED-SYNTAX"
        s!"{capture.name} is declared in for-loop header and then captured in loop closure")
    else
      let loop ← state.outline.subtree? capture.loop.id
      let target ← state.target? loop
      match target.body.obstacle? with
      | some obstacle =>
        return .report (problem capture.ref "E-UNSAFE-TRANSFORM" (obstacle.message capture.name))
      | none => return .wrap target

def visit (mode : Mode) (state : Wrapping × Report) (node : Node) : Wrapping × Report :=
  let (program, report) := state
  match (program.capture? node).bind fun capture =>
      (program.verdict? mode capture).map (capture.ref, ·) with
  | none => state
  | some (_, .report diagnostic) => (program, report.add diagnostic)
  | some (ref, .wrap target) => ((program.wrap target ref).1, report)

def run (mode : Mode) (state : Wrapping × Report) : Wrapping × Report :=
  state.1.outline.sites.foldl (fun state site => visit mode state site.node) state

end Wrapping

end LoopCapture
