import LoopCapture.Scope.Arena
import LoopCapture.Source.Diagnostic

/-!
Scopes of a program, and what its names refer to.

Programs and functions open scopes that hoist. Blocks other than the blocks of functions, `switch`
statements and loops whose header declares block scoped variables open block scopes, and handlers
open a scope for the caught variable. A variable declared by `var` belongs to the nearest scope
that hoists; every other name belongs to the scope where it is declared.
-/

set_option autoImplicit false

namespace LoopCapture

/-- What is known of a program after its declarations and references have been followed. -/
structure Resolution where
  arena : Arena
  /-- The scope of each node, by its number. -/
  scopeOf : Array ScopeId
  /-- The declaring scope of each reference, by the number of its node. -/
  declaredIn : Array (Option ScopeId)
  /-- The identifiers that declare a name against the rules, in the order of the text. -/
  conflicts : List Node

namespace Resolution

/-- Scopes and declarations while they are collected. The scopes of the nodes are collected in
pre-order, so their positions are the numbers of the nodes. -/
structure Collected where
  arena : Arena
  scopeOf : Array ScopeId
  conflicts : List Node

namespace Collected

def conflict (state : Collected) (ident : Node) : Collected :=
  { state with conflicts := state.conflicts ++ [ident] }

def bind (state : Collected) (id : ScopeId) (name : String) (kind : BindingKind) (ident : Node) :
    Collected :=
  { state with arena := state.arena.declare id name ⟨kind, ident⟩ }

/-- The scopes from one on up to the nearest one that hoists. -/
def upToHoist (arena : Arena) (id : ScopeId) : List ScopeId :=
  let target := arena.closestHoist id
  (arena.ancestors id).takeWhile (· != target) ++ [target]

/-- Declares a variable by `var`. It must not pass a block scoped declaration of the same name on
its way to the scope that hoists it, and it changes nothing where the name is declared already. -/
def declareVar (state : Collected) (id : ScopeId) (name : String) (ident : Node) : Collected :=
  let target := state.arena.closestHoist id
  let blocked := (upToHoist state.arena id).any fun scope =>
    (state.arena.get? scope).any (·.declaresBlockScoped name)
  if blocked then state.conflict ident
  else if state.arena.declares target name then state
  else state.bind target name .var ident

/-- Declares a name where it stands. A function declaration may repeat the name of a function, a
parameter or a variable declared by `var`. -/
def declareHere (state : Collected) (id : ScopeId) (name : String) (kind : BindingKind)
    (ident : Node) : Collected :=
  match state.arena.binding? id name with
  | none => state.bind id name kind ident
  | some known =>
    if kind = .fun && known.kind.yieldsToFunction then state.bind id name .fun ident
    else state.conflict ident

def declare (state : Collected) (id : ScopeId) (kind : BindingKind) (ident : Node) : Collected :=
  let name := ident.name?.getD ""
  if kind = .var then state.declareVar id name ident else state.declareHere id name kind ident

def declareAll (state : Collected) (id : ScopeId) (kind : BindingKind) (idents : List Node) :
    Collected :=
  idents.foldl (fun state ident => state.declare id kind ident) state

def openScope (state : Collected) (kind : ScopeKind) (owner : Site) (outer : ScopeId) :
    Collected × ScopeId :=
  let (arena, id) := state.arena.add kind owner (some outer)
  ({ state with arena := arena }, id)

/-- The identifiers among the children of a node that play the given part in it. -/
def inSlot (slot : Slot) (children : List Outline) : List Node :=
  (children.map (·.label.node)).filter (·.slot == slot)

/-- Enters a node from the scope around it: opens its scope, if it has one, and declares the names
that it declares. The scope of the node is given too. -/
def enter (state : Collected) (outer : ScopeId) (site : Site) (children : List Outline) :
    Collected × ScopeId :=
  match site.node.form with
  | .function _ =>
    let named := state.declareAll outer .fun (inSlot .functionName children)
    let (opened, id) := named.openScope .hoist site outer
    (opened.declareAll id .param (inSlot .parameter children), id)
  | .block =>
    if site.node.slot = .functionBody then (state, outer) else state.openScope .block site outer
  | .loop _ =>
    if (Outline.blockScopedHeader? (.node site children)).isSome then
      state.openScope .block site outer
    else (state, outer)
  | .catchClause =>
    let (opened, id) := state.openScope .catch site outer
    (opened.declareAll id .caught (inSlot .caught children), id)
  | .switch => state.openScope .block site outer
  | .declaration kind =>
    let idents := (Outline.declaredIdents (.node site children)).map Site.node
    (state.declareAll outer (.ofDecl kind) idents, outer)
  | _ => (state, outer)

mutual

def collect (state : Collected) (outer : ScopeId) : Outline → Collected
  | .node site children =>
    let (entered, id) := state.enter outer site children
    collectAll { entered with scopeOf := entered.scopeOf.push id } outer id children

/-- Collects the scopes of the children of a node. The name of a function declaration stays in the
scope around the function. -/
def collectAll (state : Collected) (outer id : ScopeId) : List Outline → Collected
  | [] => state
  | child :: rest =>
    let scope := if child.label.node.slot = .functionName then outer else id
    collectAll (collect state scope child) outer id rest

end

end Collected

def collect (outline : Outline) : Collected :=
  let (arena, root) := Arena.empty.add .hoist outline.label none
  Collected.collectAll ⟨arena, #[root], []⟩ root root outline.children

def declaringScope? (arena : Arena) (scopeOf : Array ScopeId) (node : Node) : Option ScopeId :=
  if node.isReference then
    scopeOf[node.id]?.bind fun scope => arena.lookup scope (node.name?.getD "")
  else none

def ofOutline (outline : Outline) : Resolution :=
  let collected := collect outline
  let declaredIn := outline.sites.map fun site =>
    declaringScope? collected.arena collected.scopeOf site.node
  ⟨collected.arena, collected.scopeOf, declaredIn.toArray, collected.conflicts⟩

def scope? (resolution : Resolution) (node : Node) : Option ScopeId :=
  resolution.scopeOf[node.id]?

def declaredIn? (resolution : Resolution) (node : Node) : Option ScopeId :=
  (resolution.declaredIn[node.id]?).join

end Resolution

def redeclarationMessage (ident : Node) : String :=
  let name := ident.name?.getD ""
  s!"'{name}' has already been declared"

def redeclarationDiagnostic (ident : Node) : Diagnostic :=
  { message := redeclarationMessage ident
    code := some "E-REDECLARE"
    phase := some "scope"
    span := ident.loc.span none }

end LoopCapture
