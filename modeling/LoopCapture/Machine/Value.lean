import LoopCapture.Machine.Frames
import LoopCapture.Program.Basic

/-!
Values of the running program.

Arrays are known by number, since they change. Functions, and the methods that a lookup makes
afresh each time, carry a stamp: two of them are the same value only if their stamps are equal.
-/

set_option autoImplicit false

namespace LoopCapture

abbrev ArrayId := Nat

/-- What tells apart values made at different moments. -/
abbrev Stamp := Nat

inductive Native where
  | setTimeout
  | string
  | log
  deriving DecidableEq, Repr

def Native.name : Native → String
  | .setTimeout => "setTimeout"
  | .string => "String"
  | .log => "console.log"

inductive ArrayMethod where
  | push
  | pop
  | forEach
  | map
  | filter
  | join
  | indexOf
  deriving DecidableEq, Repr

namespace ArrayMethod

def name : ArrayMethod → String
  | .push => "push"
  | .pop => "pop"
  | .forEach => "forEach"
  | .map => "map"
  | .filter => "filter"
  | .join => "join"
  | .indexOf => "indexOf"

def all : List ArrayMethod := [.push, .pop, .forEach, .map, .filter, .join, .indexOf]

def ofName? (name : String) : Option ArrayMethod :=
  all.find? (·.name == name)

end ArrayMethod

/-- The methods of functions: both call the function with a given `this`, the second one with the
items of an array as arguments. -/
inductive FunctionMethod where
  | call
  | apply
  deriving DecidableEq, Repr

namespace FunctionMethod

def name : FunctionMethod → String
  | .call => "call"
  | .apply => "apply"

def ofName? (name : String) : Option FunctionMethod :=
  [.call, .apply].find? (·.name == name)

end FunctionMethod

/-- A function of the program and the frame it was made in. -/
structure Closure where
  /-- Arrow functions have no `this` and no `arguments` of their own. -/
  isArrow : Bool
  params : List String
  body : ArrowBody
  frame : FrameId

inductive Value where
  | undefined
  | null
  | bool (value : Bool)
  | number (value : Number)
  | text (value : String)
  | array (id : ArrayId)
  | function (stamp : Stamp) (closure : Closure)
  | native (native : Native)
  | arrayMethod (stamp : Stamp) (method : ArrayMethod) (array : ArrayId)
  | functionMethod (stamp : Stamp) (method : FunctionMethod) (target : Value)
  | console (stamp : Stamp)

instance : Inhabited Value := ⟨.undefined⟩

abbrev Arrays := Array (Array Value)

namespace Value

def int (value : Int) : Value := .number (.int value)

def ofLiteral : Literal → Value
  | .null => .null
  | .bool b => .bool b
  | .number n => .number n
  | .text s => .text s

def isMissing : Value → Bool
  | .undefined => true
  | .null => true
  | _ => false

/-- The name of a function that is not written in the program. -/
def builtinName? : Value → Option String
  | .native x => some x.name
  | .arrayMethod _ method _ => some method.name
  | .functionMethod _ method _ => some method.name
  | _ => none

def isFunction : Value → Bool
  | .function .. => true
  | .native .. => true
  | .arrayMethod .. => true
  | .functionMethod .. => true
  | _ => false

end Value

end LoopCapture
