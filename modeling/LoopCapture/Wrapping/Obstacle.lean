import LoopCapture.Outline.Basic

/-!
Obstacles to moving the body of a loop into a function.

Jumps out of the body, `return`, `var` declarations and uses of `arguments` would change their
meaning inside a function. Functions in the body keep theirs, except that arrow functions share
the `arguments` of the function around them.
-/

set_option autoImplicit false

namespace LoopCapture

inductive ObstacleKind where
  | «break»
  | «continue»
  | «return»
  | arguments
  | «var»
  deriving DecidableEq, Repr

def ObstacleKind.text : ObstacleKind → String
  | .break => "break"
  | .continue => "continue"
  | .return => "return"
  | .arguments => "arguments"
  | .var => "var"

structure Obstacle where
  kind : ObstacleKind
  line : Nat
  deriving DecidableEq, Repr

namespace Obstacle

/-- The wording of an obstacle to the wrapping that a captured name asks for. -/
def message (obstacle : Obstacle) (name : String) : String :=
  s!"can't transform loop closure due to use of {obstacle.kind.text} at line {obstacle.line}. " ++
    s!"{name} is defined outside closure, inside loop"

/-- The targets inside the body that jumps can have at some place of it. -/
structure Targets where
  labels : List String
  /-- A loop, which ends an unlabelled jump of either kind. -/
  loop : Bool
  /-- A `switch`, which ends an unlabelled `break`. -/
  switch : Bool

namespace Targets

def empty : Targets := ⟨[], false, false⟩

def under (targets : Targets) : Form → Targets
  | .labeled label => { targets with labels := label :: targets.labels }
  | .loop _ => { targets with loop := true }
  | .switch => { targets with switch := true }
  | _ => targets

def keepBreak (targets : Targets) : Option String → Bool
  | some label => targets.labels.contains label
  | none => targets.loop || targets.switch

def keepContinue (targets : Targets) : Option String → Bool
  | some label => targets.labels.contains label
  | none => targets.loop

end Targets

def usesArguments (node : Node) : Bool :=
  node.name? == some "arguments" && node.isReference

def ofNode? (targets : Targets) (node : Node) : Option ObstacleKind :=
  match node.form with
  | .breaks label => if targets.keepBreak label then none else some .break
  | .continues label => if targets.keepContinue label then none else some .continue
  | .returns => some .return
  | .declaration .var => some .var
  | _ => if usesArguments node then some .arguments else none

mutual

/-- The first use of `arguments`, outside of functions that have their own. -/
def argumentsIn? : Outline → Option Obstacle
  | .node site children =>
    match site.node.form with
    | .function .declaration => none
    | .function .expression => none
    | _ =>
      if usesArguments site.node then some ⟨.arguments, site.node.loc.line⟩
      else argumentsInAll? children

def argumentsInAll? : List Outline → Option Obstacle
  | [] => none
  | tree :: rest => (argumentsIn? tree).or (argumentsInAll? rest)

end

mutual

/-- The first obstacle in a part of the body, given the targets around it. -/
def find? (targets : Targets) : Outline → Option Obstacle
  | .node site children =>
    match site.node.form with
    | .function .arrow => argumentsIn? (.node site children)
    | .function _ => none
    | form =>
      match ofNode? targets site.node with
      | some kind => some ⟨kind, site.node.loc.line⟩
      | none => findIn? (targets.under form) children

def findIn? (targets : Targets) : List Outline → Option Obstacle
  | [] => none
  | tree :: rest => (find? targets tree).or (findIn? targets rest)

end

end Obstacle

/-- The first obstacle, in the order of the text, to moving a loop body into a function. -/
def Outline.obstacle? (body : Outline) : Option Obstacle :=
  Obstacle.find? .empty body

end LoopCapture
