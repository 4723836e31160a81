import LoopCapture.Files.Fault
import LoopCapture.Files.Path
import LoopCapture.Json.Reader
import LoopCapture.Text.Utf8

/-!
Options of the compiler.

Options come from defaults, from a JSON object and from the command line, and the later ones count.
-/

set_option autoImplicit false

namespace LoopCapture

inductive Mode where
  | wrap
  | report
  deriving DecidableEq, Repr

namespace Mode

def text : Mode → String
  | .wrap => "iife"
  | .report => "error"

def all : List Mode := [.wrap, .report]

def ofText? (name : String) : Option Mode :=
  all.find? (·.text == name)

end Mode

structure Options where
  mode : Mode
  deriving DecidableEq, Repr

inductive OptionsError where
  | invalidMode (shown : CodePoints)
  | notAnObject
  | unknownKey (key : CodePoints)
  | unreadable (path reason : String)
  | malformed (path : String) (cause : Json.Malformed) (line : Nat)
  deriving DecidableEq, Repr

def OptionsError.message : OptionsError → CodePoints
  | .invalidMode shown =>
    let expected := ", ".intercalate (Mode.all.map Mode.text)
    .ofString "invalid loopClosures mode '" ++ shown ++
      .ofString s!"' (expected one of {expected})"
  | .notAnObject => .ofString "config must be a JSON object"
  | .unknownKey key => .ofString "unknown config key '" ++ key ++ .ofString "'"
  | .unreadable path reason => .ofString s!"cannot read config '{path}': {reason}"
  | .malformed path cause line =>
    .ofString s!"invalid JSON in config '{path}': {cause.message} (line {line})"

namespace Options

def standard : Options := ⟨.wrap⟩

def withMode (value : Json) : Except OptionsError Options :=
  match value with
  | .string name =>
    match name.toString?.bind Mode.ofText? with
    | some mode => .ok ⟨mode⟩
    | none => .error (.invalidMode value.shown)
  | _ => .error (.invalidMode value.shown)

/-- The options changed by a value, which may be null to change nothing. -/
def updated (options : Options) : Json → Except OptionsError Options
  | .null => .ok options
  | value => withMode value

def modeKeys : List CodePoints := [.ofString "loopClosures", .ofString "loop_closures"]

/-- The value for the mode among the members of an object: the last one given. -/
def modeValue (known : Json) : List (CodePoints × Json) → Except OptionsError Json
  | [] => .ok known
  | (key, value) :: rest =>
    if modeKeys.contains key then modeValue value rest else .error (.unknownKey key)

def ofJson (base : Options) : Json → Except OptionsError Options
  | .object members => do base.updated (← modeValue .null members)
  | _ => .error .notAnObject

/-- Why a file gives no options: an error that is reported, a path that no file can have, or
contents that cannot be read as text or as JSON at all. -/
inductive FileError where
  | options (error : OptionsError)
  | nulInPath
  | encoding (fault : Text.Utf8Fault)
  | number (fault : NumberFault)
  | nesting
  deriving DecidableEq, Repr

def ofText (base : Options) (path : Path) (text : List Char) : Except FileError Options :=
  match Json.readText text with
  | .error (.malformed cause remaining) =>
    .error (.options (.malformed path.text cause (Json.lineOf text remaining)))
  | .error (.number fault) => .error (.number fault)
  | .error .nesting => .error .nesting
  | .ok value => (ofJson base value).mapError .options

def ofFile (base : Options) (path : Path) : FileContents → Except FileError Options
  | .error .nulInPath => .error .nulInPath
  | .error fault => .error (.options (.unreadable path.text fault.reason))
  | .ok bytes =>
    match Text.decodeFile bytes with
    | .error (fault, _) => .error (.encoding fault)
    | .ok text => ofText base path text

end Options

end LoopCapture
