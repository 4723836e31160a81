import LoopCapture.Scope.Arena

/-!
An arena of scopes under outside control, one request at a time.

Positions come from outside here. They count from the first scope on or, when they are negative,
from the end at the time of use, and there may be no scope at them. The ledger keeps the positions
by which scopes were linked to each other. Adding a scope under a position without a scope, or
moving one there, fails after the change has been made.
-/

set_option autoImplicit false

namespace LoopCapture

/-- An arena with the positions that were given for its links. -/
structure Ledger where
  arena : Arena
  /-- For each scope, the position given for the scope around it. -/
  parents : Array (Option Int)
  /-- For each scope, the positions given for the scopes directly inside it. -/
  children : Array (List Int)

namespace Ledger

def empty : Ledger := ⟨.empty, #[], #[]⟩

inductive Request where
  | add (kind : ScopeKind) (owner : Site) (parent : Option Int)
  | declare (position : Int) (name : String) (binding : Binding)
  | kindOf (position : Int) (name : String)
  | identOf (position : Int) (name : String)
  | lookup (position : Option Int) (name : String)
  | closestHoist (position : Int)
  | ancestors (position : Int)
  | setKind (position : Int) (kind : ScopeKind)
  | reparent (position parent : Int)
  | root

inductive Answer where
  | done
  | scope (id : ScopeId)
  | positionOption (position : Option Int)
  | kindOption (kind : Option BindingKind)
  | identOption (ident : Option Node)
  | scopes (ids : List ScopeId)

inductive Refusal where
  | unknownScope
  /-- A scope is missing among the children of the scope around it. -/
  | notAChild
  deriving DecidableEq, Repr

/-! ## Positions -/

/-- The index that a position stands for among a number of things. The indices from that number on
stand for nothing. -/
def indexOf (size : Nat) (position : Int) : Nat :=
  if 0 ≤ position then position.toNat
  else if 0 ≤ position + size then (position + size).toNat
  else size

/-- The scope at a position, which must be known. -/
def known (ledger : Ledger) (position : Int) : Except Refusal (ScopeId × Scope) :=
  let id := indexOf ledger.arena.size position
  match ledger.arena.get? id with
  | none => .error .unknownScope
  | some scope => .ok (id, scope)

/-- The arena with its links brought up to date, since positions count from the end that it has
now. -/
def relink (ledger : Ledger) : Ledger :=
  let size := ledger.arena.size
  { ledger with
    arena := ⟨ledger.arena.scopes.mapIdx fun id scope =>
      { scope with parent := (ledger.parents[id]?).join.map (indexOf size) }⟩ }

/-! ## Requests -/

def about (ledger : Ledger) (position : Int) (answer : Scope → Answer) : Except Refusal Answer :=
  (ledger.known position).map fun (_, scope) => answer scope

/-- The ledger with a change of its arena at a position, which must be known. -/
def changing (ledger : Ledger) (position : Int) (change : ScopeId → Arena) :
    Ledger × Except Refusal Answer :=
  match ledger.known position with
  | .error refusal => (ledger, .error refusal)
  | .ok (id, _) => ({ ledger with arena := change id }, .ok .done)

/-- The first scope of a way that passes a test. A broken way must have one. -/
def findOn (chain : Arena.Chain) (test : ScopeId → Bool) : Except Refusal (Option ScopeId) :=
  match chain.ids.find? test with
  | some id => .ok (some id)
  | none => if chain.broken then .error .unknownScope else .ok none

/-- The position of the nearest scope, at a position or around it, that declares a name. Each scope
is called by the position that led to it. -/
def find (ledger : Ledger) (position : Int) (name : String) : Except Refusal (Option Int) := do
  let (start, _) ← ledger.known position
  let chain := ledger.arena.chain (some start)
  let found ← findOn chain (ledger.arena.declares · name)
  return found.map fun id =>
    let before := chain.ids.takeWhile (· != id)
    match before.getLast? with
    | none => position
    | some inner => (ledger.parents[inner]?).join.getD id

/-- Notes a child of the scope at a position, which must be known. -/
def enter (ledger : Ledger) (parent child : Int) : Ledger × Except Refusal Unit :=
  match ledger.known parent with
  | .error refusal => (ledger, .error refusal)
  | .ok (outer, _) =>
    ({ ledger with children := ledger.children.modify outer (· ++ [child]) }, .ok ())

/-- Adds a scope, as far as the position of the scope around it allows. -/
def add (ledger : Ledger) (kind : ScopeKind) (owner : Site) (parent : Option Int) :
    Ledger × Except Refusal Answer :=
  let (arena, id) := ledger.arena.add kind owner (parent.map (indexOf (ledger.arena.size + 1)))
  let grown := relink ⟨arena, ledger.parents.push parent, ledger.children.push []⟩
  match parent with
  | none => (grown, .ok (.scope id))
  | some position =>
    let (grown, result) := grown.enter position id
    (grown, result.map fun _ => .scope id)

/-- Links a scope, given by its position, to another one. The scope is not among the children of
any scope before that. -/
def settle (ledger : Ledger) (position parent : Int) : Ledger × Except Refusal Answer :=
  let size := ledger.arena.size
  let id := indexOf size position
  let moved := { ledger with
    arena := ledger.arena.reparent id (indexOf size parent)
    parents := ledger.parents.modify id fun _ => some parent }
  let (moved, result) := moved.enter parent position
  (moved, result.map fun _ => .done)

def move (ledger : Ledger) (position parent : Int) : Ledger × Except Refusal Answer :=
  match ledger.known position with
  | .error refusal => (ledger, .error refusal)
  | .ok (_, scope) =>
    match scope.parent with
    | none => ledger.settle position parent
    | some outer =>
      match ledger.children[outer]? with
      | none => (ledger, .error .unknownScope)
      | some siblings =>
        if siblings.contains position then
          let left := { ledger with children := ledger.children.modify outer (·.erase position) }
          left.settle position parent
        else (ledger, .error .notAChild)

def serve (ledger : Ledger) : Request → Ledger × Except Refusal Answer
  | .add kind owner parent => ledger.add kind owner parent
  | .declare position name binding =>
    ledger.changing position fun id => ledger.arena.declare id name binding
  | .kindOf position name =>
    (ledger, ledger.about position fun scope =>
      .kindOption ((scope.bindings.get? name).map Binding.kind))
  | .identOf position name =>
    (ledger, ledger.about position fun scope =>
      .identOption ((scope.bindings.get? name).map Binding.ident))
  | .lookup none _ => (ledger, .ok (.positionOption none))
  | .lookup (some position) name => (ledger, (ledger.find position name).map .positionOption)
  | .closestHoist position =>
    (ledger, do
      let (id, _) ← ledger.known position
      let found ← findOn (ledger.arena.chain (some id)) ledger.arena.hoists
      return .scope (found.getD (ledger.arena.closestHoist id)))
  | .ancestors position =>
    (ledger, do
      let (id, _) ← ledger.known position
      let chain := ledger.arena.chain (some id)
      if chain.broken then .error .unknownScope else return .scopes chain.ids)
  | .setKind position kind =>
    ledger.changing position fun id => ledger.arena.setKind id kind
  | .reparent position parent => ledger.move position parent
  | .root => (ledger, ledger.about 0 fun _ => .scope 0)

def texts (ledger : Ledger) : List String :=
  (ledger.arena.scopes.toList.zip ledger.parents.toList).zipIdx.map fun ((scope, parent), id) =>
    Arena.scopeLine id scope parent

end Ledger

end LoopCapture
