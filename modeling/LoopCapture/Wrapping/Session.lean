import LoopCapture.Wrapping.Basic

/-!
The pass under outside control, one request at a time.

A session can be set up for a mode and a report, taken back to its start, and asked to visit one
reference, all nodes, or to wrap a given loop. Taking it back forgets what it has rewritten, but the
loops stay wrapped.
-/

set_option autoImplicit false

namespace LoopCapture.Wrapping

structure Session where
  program : Wrapping
  mode : Mode
  /-- The report of a session that has been set up. -/
  report : Option Report
  /-- The loops rewritten since the session was last taken back. -/
  rewritten : List Nat

inductive Request where
  | configure (options : Options) (file : Option String)
  | reset
  | run
  | visit (ref : Node)
  | wrap (loop : Outline) (ref : Node)
  | insert (offset : Int) (request : Insertions.Request)

inductive Refusal where
  | visitBeforeSetup
  | wrapBeforeSetup
  | rewrittenTwice (loop : Node)
  | insertion (refusal : Insertions.Refusal)

def Refusal.message : Refusal → String
  | .visitBeforeSetup => "LoopClosures.visit called before configure()"
  | .wrapBeforeSetup => ""
  | .rewrittenTwice loop =>
    s!"{loop.form.typeName} at line {loop.loc.line} rewritten twice"
  | .insertion refusal => refusal.message

namespace Session

def start (program : Wrapping) : Session := ⟨program, Options.standard.mode, none, []⟩

/-- The session after its program has changed. Loops wrapped in between count as rewritten. -/
def advance (session : Session) (program : Wrapping) (report : Report) : Session :=
  { session with
    program := program
    report := some report
    rewritten := session.rewritten ++ program.wrapped.drop session.program.wrapped.length }

/-- Changes the program and the report of a session that has been set up for visits. -/
def visiting (session : Session) (change : Wrapping × Report → Wrapping × Report) :
    Session × Except Refusal (Option ScopeId) :=
  match session.report with
  | none => (session, .error .visitBeforeSetup)
  | some report =>
    let (program, report) := change (session.program, report)
    (session.advance program report, .ok none)

/-- Wraps a loop for the sake of a reference; the answer is the scope of the function around the
body. -/
def wrapLoop (session : Session) (loop : Outline) (ref : Node) :
    Session × Except Refusal (Option ScopeId) :=
  match session.report, session.program.target? loop with
  | some report, some target =>
    if session.program.wrapped.contains loop.label.node.id then
      (session, .error (.rewrittenTwice loop.label.node))
    else
      let (program, wrapper) := session.program.wrap target ref
      (session.advance program report, .ok (some wrapper))
  | _, _ => (session, .error .wrapBeforeSetup)

def serve (session : Session) : Request → Session × Except Refusal (Option ScopeId)
  | .configure options file =>
    ({ session with mode := options.mode, report := some (.empty file) }, .ok none)
  | .reset => (start session.program, .ok none)
  | .run => session.visiting (Wrapping.run session.mode)
  | .visit ref => session.visiting fun state => Wrapping.visit session.mode state ref
  | .wrap loop ref => session.wrapLoop loop ref
  | .insert offset request =>
    match session.program.insertions.insert offset request with
    | .error refusal => (session, .error (.insertion refusal))
    | .ok insertions =>
      ({ session with program := { session.program with insertions := insertions } }, .ok none)

end Session

end LoopCapture.Wrapping
