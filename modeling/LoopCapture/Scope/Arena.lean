import LoopCapture.Entries
import LoopCapture.Outline.Basic
import LoopCapture.Text.Quoted

/-!
Scopes in an arena.

Scopes are records in one array and refer to each other by their positions. A scope knows the scope
around it and the scopes directly inside it; so scopes can be added, and moved under another scope,
without any of them owning another.
-/

set_option autoImplicit false

namespace LoopCapture

abbrev ScopeId := Nat

/-- What a scope covers. Variables declared by `var` belong to the nearest scope that hoists. -/
inductive ScopeKind where
  | hoist
  | block
  | «catch»
  deriving DecidableEq, Repr

namespace ScopeKind

def text : ScopeKind → String
  | .hoist => "hoist"
  | .block => "block"
  | .catch => "catch"

def ofText? (name : String) : Option ScopeKind :=
  [ScopeKind.hoist, .block, .catch].find? (·.text == name)

end ScopeKind

/-- How a name is declared. Kinds other than those of programs are kept without a meaning. -/
inductive BindingKind where
  | «var»
  | «let»
  | «const»
  | «fun»
  | param
  | caught
  | other (name : String)
  deriving DecidableEq, Repr

namespace BindingKind

def text : BindingKind → String
  | .var => "var"
  | .let => "let"
  | .const => "const"
  | .fun => "fun"
  | .param => "param"
  | .caught => "caught"
  | .other name => name

def ofText (name : String) : BindingKind :=
  ([BindingKind.var, .let, .const, .fun, .param, .caught].find? (·.text == name)).getD (.other name)

def ofDecl : DeclKind → BindingKind
  | .var => .var
  | .let => .let
  | .const => .const

def isBlockScoped : BindingKind → Bool
  | .let => true
  | .const => true
  | _ => false

/-- Names that a function declaration may declare once more. -/
def yieldsToFunction : BindingKind → Bool
  | .fun => true
  | .var => true
  | .param => true
  | _ => false

end BindingKind

/-- A declared name: how it is declared, and by which identifier. -/
structure Binding where
  kind : BindingKind
  ident : Node
  deriving DecidableEq, Repr

/-- A scope: its kind, the site that opens it, its neighbours in the arena and its names in the
order of their first declaration. -/
structure Scope where
  kind : ScopeKind
  owner : Site
  parent : Option ScopeId
  children : List ScopeId
  bindings : Entries String Binding

namespace Scope

def declares (scope : Scope) (name : String) : Bool := scope.bindings.has name

def declaresBlockScoped (scope : Scope) (name : String) : Bool :=
  (scope.bindings.get? name).any (·.kind.isBlockScoped)

end Scope

structure Arena where
  scopes : Array Scope

namespace Arena

def empty : Arena := ⟨#[]⟩

def size (arena : Arena) : Nat := arena.scopes.size

def get? (arena : Arena) (id : ScopeId) : Option Scope := arena.scopes[id]?

def modify (arena : Arena) (id : ScopeId) (change : Scope → Scope) : Arena :=
  ⟨arena.scopes.modify id change⟩

def declares (arena : Arena) (id : ScopeId) (name : String) : Bool :=
  (arena.get? id).any (·.declares name)

def binding? (arena : Arena) (id : ScopeId) (name : String) : Option Binding :=
  (arena.get? id).bind (·.bindings.get? name)

/-! ## Ways up -/

/-- The scopes from one on up to the outermost one. A way ends early when it meets a position
without a scope; then it is broken. -/
structure Chain where
  ids : List ScopeId
  broken : Bool

def climb (arena : Arena) : Nat → Option ScopeId → Chain
  | _, none => ⟨[], false⟩
  | 0, some _ => ⟨[], true⟩
  | bound + 1, some id =>
    match arena.get? id with
    | none => ⟨[], true⟩
    | some scope =>
      let rest := climb arena bound scope.parent
      { rest with ids := id :: rest.ids }

/-- The way up from a position. No way visits a scope twice, so it has at most as many scopes as
the arena. -/
def chain (arena : Arena) (id : Option ScopeId) : Chain :=
  arena.climb arena.size id

/-- A scope and all scopes around it, the innermost one first. -/
def ancestors (arena : Arena) (id : ScopeId) : List ScopeId :=
  (arena.chain (some id)).ids

/-- The nearest scope, at a position or around it, that declares a name. -/
def lookup (arena : Arena) (id : ScopeId) (name : String) : Option ScopeId :=
  (arena.ancestors id).find? (arena.declares · name)

def hoists (arena : Arena) (id : ScopeId) : Bool :=
  (arena.get? id).any (·.kind == .hoist)

/-- The nearest scope, at a position or around it, that hoists; the outermost scope if there is
none. -/
def closestHoist (arena : Arena) (id : ScopeId) : ScopeId :=
  let ids := arena.ancestors id
  (ids.find? arena.hoists).getD (ids.getLast?.getD id)

/-! ## Changes -/

def add (arena : Arena) (kind : ScopeKind) (owner : Site) (parent : Option ScopeId) :
    Arena × ScopeId :=
  let id := arena.size
  let grown : Arena := ⟨arena.scopes.push ⟨kind, owner, parent, [], []⟩⟩
  match parent with
  | none => (grown, id)
  | some outer => (grown.modify outer fun scope => { scope with children := scope.children ++ [id] }, id)

/-- Declares a name, which replaces what the scope knew of it. -/
def declare (arena : Arena) (id : ScopeId) (name : String) (binding : Binding) : Arena :=
  arena.modify id fun scope => { scope with bindings := scope.bindings.put name binding }

def setKind (arena : Arena) (id : ScopeId) (kind : ScopeKind) : Arena :=
  arena.modify id fun scope => { scope with kind := kind }

/-- Takes a scope out of the children of the scope around it. -/
def detach (arena : Arena) (id : ScopeId) : Arena :=
  match (arena.get? id).bind Scope.parent with
  | none => arena
  | some outer => arena.modify outer fun scope => { scope with children := scope.children.erase id }

/-- Moves a scope under another one, as its last child. -/
def reparent (arena : Arena) (id parent : ScopeId) : Arena :=
  let moved := (arena.detach id).modify id fun scope => { scope with parent := some parent }
  moved.modify parent fun scope => { scope with children := scope.children ++ [id] }

/-! ## Text -/

/-- Names in the order of their code points, as a list of quoted texts. -/
def namesText (names : List String) : String :=
  "[" ++ ", ".intercalate ((names.mergeSort (· ≤ ·)).map Text.quoted) ++ "]"

/-- A scope at a position, on one line, with the position given for the scope around it. -/
def scopeLine (id : ScopeId) (scope : Scope) (parent : Option Int) : String :=
  let around := match parent with
    | none => "None"
    | some outer => toString outer
  s!"Scope(id={id}, kind={scope.kind.text}, node={scope.owner.node.form.typeName}, parent={around}, names={namesText scope.bindings.names})"

def scopeText (id : ScopeId) (scope : Scope) : String :=
  scopeLine id scope (scope.parent.map Int.ofNat)

end Arena

end LoopCapture
