import LoopCapture.Files.Path
import LoopCapture.Options
import LoopCapture.Text.Digit

/-!
Arguments of the command.

A word that starts with a dash is an option. Long options can be shortened as long as they stay
unambiguous, a value can be attached to a long one by an equals sign and to a short one directly, and
two dashes alone end the options. Exactly one word is left: the source.
-/

set_option autoImplicit false

namespace LoopCapture

inductive Flag where
  | help
  | output
  | json
  | config
  | loopClosures
  | run
  deriving DecidableEq, Repr

namespace Flag

def spellings : List (String × Flag) := [
  ("-h", .help), ("--help", .help), ("-o", .output), ("--output", .output), ("--json", .json),
  ("--config", .config), ("--loop-closures", .loopClosures), ("--run", .run)]

def ofText? (spelling : String) : Option Flag := spellings.lookup spelling

def takesValue : Flag → Bool
  | .output => true
  | .config => true
  | .loopClosures => true
  | _ => false

end Flag

inductive Setting (α : Type) where
  | absent
  /-- Two dashes alone were attached as the value, and they stand for nothing. -/
  | blank
  | given (value : α)
  deriving DecidableEq, Repr

structure Arguments where
  source : Path
  output : Setting Path
  json : Bool
  config : Setting Path
  mode : Setting Mode
  run : Bool
  deriving DecidableEq, Repr

namespace Arguments

inductive Refusal where
  | help
  | usage
  deriving DecidableEq, Repr

/-! ## Words -/

inductive Word where
  | separator
  | plain (text : String)
  /-- An option by a long or a short spelling, and the value attached to it. -/
  | flag (flag : Flag) (long : Bool) (attached : Option String)
  | unknown
  deriving DecidableEq, Repr

/-- A text up to the first equals sign, and what follows the sign. -/
def splitValue (text : String) : String × Option String :=
  let cs := text.toList
  let name := String.ofList (cs.takeWhile (· != '='))
  match cs.dropWhile (· != '=') with
  | [] => (name, none)
  | _ :: value => (name, some (String.ofList value))

/-- Whether characters are a negative number: an integer, or a fraction with digits after the
point. -/
def isNegative (cs : List Char) : Bool :=
  let cs := if cs.getLast? == some '\n' then cs.dropLast else cs
  match cs with
  | '-' :: rest =>
    let fraction := rest.dropWhile Text.isDecimal
    match fraction with
    | [] => !rest.isEmpty
    | '.' :: digits => !digits.isEmpty && digits.all Text.isDecimal
    | _ => false
  | _ => false

/-- A word with two dashes that is not spelled out: the one option that starts so, if any. -/
def longWord (text : String) : Except Refusal (Option Word) :=
  let (name, value) := splitValue text
  match Flag.spellings.filter fun (spelling, _) => name.isPrefixOf spelling with
  | [] => .ok none
  | [(_, flag)] => .ok (some (.flag flag true value))
  | _ => .error .usage

/-- A word with one dash that is not spelled out: a short option with the value attached. -/
def shortWord (text : String) : Option Word :=
  let cs := text.toList
  (Flag.ofText? (String.ofList (cs.take 2))).map fun flag =>
    .flag flag false (some (String.ofList (cs.drop 2)))

def isLong (spelling : String) : Bool := "--".isPrefixOf spelling

def flagWord (text : String) : Except Refusal (Option Word) :=
  let (name, value) := splitValue text
  match Flag.ofText? text, Flag.ofText? name with
  | some flag, _ => .ok (some (.flag flag (isLong text) none))
  | none, some flag => .ok (some (.flag flag (isLong name) value))
  | none, none => if isLong text then longWord text else .ok (shortWord text)

def word (text : String) : Except Refusal Word := do
  match text.toList with
  | '-' :: second :: rest =>
    match ← flagWord text with
    | some word => return word
    | none =>
      let cs := '-' :: second :: rest
      return if isNegative cs || cs.contains ' ' then .plain text else .unknown
  | _ => return .plain text

def words : List String → Except Refusal (List Word)
  | [] => .ok []
  | text :: rest =>
    if text = "--" then .ok (.separator :: rest.map .plain)
    else do return (← word text) :: (← words rest)

/-! ## Settings -/

structure Progress where
  source : Option String := none
  output : Setting Path := .absent
  json : Bool := false
  config : Setting Path := .absent
  mode : Setting Mode := .absent
  run : Bool := false
  /-- Whether there are words that mean nothing. -/
  surplus : Bool := false

def settingOf {α : Type} (read : String → Except Refusal α) (text : String) :
    Except Refusal (Setting α) :=
  if text = "--" then .ok .blank else do return .given (← read text)

def modeOf (name : String) : Except Refusal Mode :=
  match Mode.ofText? name with
  | some mode => .ok mode
  | none => .error .usage

def Progress.setValue (progress : Progress) (flag : Flag) (value : String) :
    Except Refusal Progress := do
  let path (text : String) : Except Refusal Path := .ok (.ofText text)
  match flag with
  | .output => return { progress with output := ← settingOf path value }
  | .config => return { progress with config := ← settingOf path value }
  | .loopClosures => return { progress with mode := ← settingOf modeOf value }
  | _ => return progress

def Progress.setFlag (progress : Progress) (flag : Flag) : Except Refusal Progress :=
  match flag with
  | .help => .error .help
  | .json => .ok { progress with json := true }
  | .run => .ok { progress with run := true }
  | _ => .ok progress

/-- The refusal for a short option without a value that has letters attached. Further short options
may be attached to it; the last of them may have a value, attached or in the next word. -/
def attachedRefusal (next : Option Word) : List Char → Refusal
  | [] => .help
  | c :: rest =>
    match Flag.ofText? (String.ofList ['-', c]), rest, next with
    | none, _, _ => .usage
    | some .help, rest, next => attachedRefusal next rest
    | some _, [], some (.plain _) => .help
    | some _, [], _ => .usage
    | some _, _ :: _, _ => .help

def Progress.settle (progress : Progress) : List Word → Except Refusal Progress
  | [] => .ok progress
  | .unknown :: rest => settle { progress with surplus := true } rest
  | .separator :: .plain text :: rest =>
    if progress.source.isNone then settle { progress with source := some text } rest
    else .ok { progress with surplus := true }
  | .separator :: _ => .ok { progress with surplus := true }
  | .plain text :: .separator :: rest =>
    if progress.source.isNone then
      .ok { progress with source := some text, surplus := progress.surplus || !rest.isEmpty }
    else .ok { progress with surplus := true }
  | .plain text :: rest =>
    if progress.source.isNone then settle { progress with source := some text } rest
    else settle { progress with surplus := true } rest
  | .flag flag long attached :: rest =>
    if flag.takesValue then
      match attached, rest with
      | some value, rest => do settle (← progress.setValue flag value) rest
      | none, .plain value :: rest => do settle (← progress.setValue flag value) rest
      | none, _ => .error .usage
    else match attached with
      | none => do settle (← progress.setFlag flag) rest
      | some value =>
        if long || value.isEmpty then .error .usage
        else .error (attachedRefusal rest.head? value.toList)

def ofWords (texts : List String) : Except Refusal Arguments := do
  let progress ← Progress.settle {} (← words texts)
  match progress.surplus, progress.source with
  | false, some source =>
    return ⟨.ofText source, progress.output, progress.json, progress.config, progress.mode,
      progress.run⟩
  | _, _ => .error .usage

end Arguments

end LoopCapture
