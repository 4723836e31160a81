import LoopCapture.Entries
import LoopCapture.Number.Basic
import LoopCapture.Text.Quoted

/-!
JSON values, their compact text, and the way messages show them.
-/

set_option autoImplicit false

namespace LoopCapture

/-- A JSON value. Strings and names are given by code points, since escapes can name surrogates.
The members of an object are in the order of first appearance. -/
inductive Json where
  | null
  | bool (value : Bool)
  | number (value : Number)
  | string (value : CodePoints)
  | array (items : List Json)
  | object (members : List (CodePoints × Json))
  deriving Inhabited

namespace Json

def text (s : String) : Json := .string (.ofString s)

def record (members : List (String × Json)) : Json :=
  .object (members.map fun (name, value) => (.ofString name, value))

def int (i : Int) : Json := .number (.int i)

def nat (n : Nat) : Json := int n

def ofOption {α : Type} (encode : α → Json) : Option α → Json
  | none => .null
  | some a => encode a

def get? : Json → String → Option Json
  | .object members, name => Entries.get? members (.ofString name)
  | _, _ => none

/-! ## Text -/

def unitEscape (unit : Nat) : List Char :=
  '\\' :: 'u' :: Text.hexDigits 4 unit

/-- One character of a string: ASCII characters stand for themselves, a few have short escapes, and
all others are written by their UTF-16 units. -/
def escapedChar (c : Char) : List Char :=
  if c = '"' || c = '\\' then ['\\', c]
  else if c = '\n' then ['\\', 'n']
  else if c = '\r' then ['\\', 'r']
  else if c = '\t' then ['\\', 't']
  else if c = '\x08' then ['\\', 'b']
  else if c = '\x0c' then ['\\', 'f']
  else if ' ' ≤ c && c ≤ '~' then [c]
  else
    let n := c.toNat
    if n < 0x10000 then unitEscape n
    else
      let pair := n - 0x10000
      unitEscape (0xd800 + pair / 0x400) ++ unitEscape (0xdc00 + pair % 0x400)

def escapedPoint : CodePoint → List Char
  | .char c => escapedChar c
  | .surrogate unit => unitEscape unit

def stringText (points : CodePoints) : String :=
  String.ofList ('"' :: points.flatMap escapedPoint ++ ['"'])

def numberText : Number → String
  | .int i => toString i
  | .float x =>
    if x.isNaN then "NaN"
    else if x.isInf then if 0 < x then "Infinity" else "-Infinity"
    else Binary64.text x

mutual

/-- The text of a value: one line, a blank after each comma and colon, ASCII only. -/
def render : Json → String
  | .null => "null"
  | .bool true => "true"
  | .bool false => "false"
  | .number n => numberText n
  | .string s => stringText s
  | .array items => "[" ++ ", ".intercalate (renderItems items) ++ "]"
  | .object members => "\x7b" ++ ", ".intercalate (renderMembers members) ++ "\x7d"

def renderItems : List Json → List String
  | [] => []
  | item :: rest => render item :: renderItems rest

def renderMembers : List (CodePoints × Json) → List String
  | [] => []
  | (name, value) :: rest => (stringText name ++ ": " ++ render value) :: renderMembers rest

end

/-! ## In messages -/

def shownNumber : Number → String
  | .int i => toString i
  | .float x => Binary64.text x

mutual

/-- A value inside another one in a message. Strings are quoted. -/
def shownInside : Json → String
  | .null => "None"
  | .bool true => "True"
  | .bool false => "False"
  | .number n => shownNumber n
  | .string s => Text.quotedPoints s
  | .array items => "[" ++ ", ".intercalate (shownItems items) ++ "]"
  | .object members => "\x7b" ++ ", ".intercalate (shownMembers members) ++ "\x7d"

def shownItems : List Json → List String
  | [] => []
  | item :: rest => shownInside item :: shownItems rest

def shownMembers : List (CodePoints × Json) → List String
  | [] => []
  | (name, value) :: rest => (Text.quotedPoints name ++ ": " ++ shownInside value) :: shownMembers rest

end

/-- A value in a message. A string stands there as it is. -/
def shown : Json → CodePoints
  | .string s => s
  | value => .ofString (shownInside value)

end Json

end LoopCapture
