import LoopCapture.Command.Arguments
import LoopCapture.Compilation
import LoopCapture.Machine.Run

/-!
The command: it compiles a file, writes or prints the result, and runs it on request.

What the command does is planned before anything is done: from its arguments and the contents of
the files it reads follow the file it writes, what it prints, and its exit code.
-/

set_option autoImplicit false

namespace LoopCapture.Command

/-! ## Messages -/

def problemJson (d : Diagnostic) (message : Json) : Json :=
  .record [
    ("phase", .ofOption .text d.phase),
    ("code", .ofOption .text d.code),
    ("message", message),
    ("severity", .text d.severity),
    ("file", .ofOption .text d.span.file),
    ("line", .ofOption .int d.span.line),
    ("column", .ofOption .int d.span.column)]

def diagnosticJson (d : Diagnostic) : Json :=
  problemJson d (.text d.message)

def jsonLine (exitCode : Nat) (problems : List Json) (more : List (String × Json)) : String :=
  let members := [("exit_code", Json.nat exitCode), ("diagnostics", Json.array problems)]
  (Json.record (members ++ more)).render ++ "\n"

def onLines (texts : List String) : String :=
  String.join (texts.map (· ++ "\n"))

/-! ## Plans -/

inductive Failure where
  | literal (fault : LiteralFault)
  | output (error : ParseError)
  | stop (stop : Stop) (machine : Machine)
  /-- No file can have a path that was given. -/
  | nulInPath
  | encoding (fault : Text.Utf8Fault)
  | number (fault : NumberFault)
  | nesting
  /-- The output option was given without a path. -/
  | blankOutput

inductive Ending where
  | exits (code : Nat) (stdout stderr : String)
  | fails (failure : Failure)

/-- What the command does: it writes at most one file, and then it ends. -/
structure Plan where
  write : Option (Path × String)
  ending : Ending

def Plan.only (ending : Ending) : Plan := ⟨none, ending⟩

def rejection (json : Bool) (diagnostics : List Diagnostic) : Ending :=
  if json then .exits 1 (jsonLine 1 (diagnostics.map diagnosticJson) []) ""
  else .exits 1 "" (onLines (diagnostics.map Diagnostic.render))

def fileError (json : Bool) (path : Path) (phase : String) (message : CodePoints) : Ending :=
  let d : Diagnostic := {
    message := message.printed
    phase := some phase
    span := { file := some path.text } }
  if json then .exits 1 (jsonLine 1 [problemJson d (.string message)] []) ""
  else .exits 1 "" (onLines [d.render])

/-! ## Steps -/

/-- The options of a compilation: those of the configuration file, if there is one, changed by the
mode on the command line. -/
def options (arguments : Arguments) (config : FileContents) : Except Options.FileError Options := do
  let base ← match arguments.config with
    | .given path => Options.ofFile .standard path config
    | _ => .ok .standard
  match arguments.mode with
  | .absent => return base
  | .given mode => return ⟨mode⟩
  | .blank => (base.updated (.array [])).mapError .options

def configEnding (arguments : Arguments) : Options.FileError → Ending
  | .options error =>
    let path := match arguments.config with
      | .given path => path
      | _ => arguments.source
    fileError arguments.json path "config" error.message
  | .nulInPath => .fails .nulInPath
  | .encoding fault => .fails (.encoding fault)
  | .number fault => .fails (.number fault)
  | .nesting => .fails .nesting

def sourceText (arguments : Arguments) : FileContents → Except Ending String
  | .error .nulInPath => .error (.fails .nulInPath)
  | .error fault =>
    .error (fileError arguments.json arguments.source "io"
      (.ofString s!"cannot read source: {fault.reason}"))
  | .ok bytes =>
    match Text.decodeFile bytes with
    | .error (fault, offset) =>
      .error (fileError arguments.json arguments.source "io"
        (.ofString s!"source is not valid UTF-8: {fault.message} at byte {offset}"))
    | .ok cs => .ok (String.ofList cs)

def compiledEnding (arguments : Arguments) (report : Report) (output : String) : Ending :=
  let printed := arguments.output == .absent
  if arguments.json then
    .exits 0 (jsonLine 0 (report.diagnostics.map diagnosticJson)
      (if printed then [("output", .text output)] else [])) ""
  else .exits 0 (if printed then output else "") ""

def runEnding (arguments : Arguments) (report : Report) (output : String) : Ending :=
  match Program.ofText output.toList with
  | .error (.parse error) => .fails (.output error)
  | .error (.literal fault) => .fails (.literal fault)
  | .ok program =>
    match program.run .function with
    | .done _ machine =>
      let lines := machine.lines.toList
      if arguments.json then
        .exits 0 (jsonLine 0 (report.diagnostics.map diagnosticJson)
          [("console", .array (lines.map .text))]) ""
      else .exits 0 (onLines lines) ""
    | .stopped (.throws _ text) _ =>
      fileError arguments.json arguments.source "runtime"
        (.ofString s!"uncaught exception: {text}")
    | .stopped stop machine => .fails (.stop stop machine)

def outputPlan (arguments : Arguments) (report : Report) (output : String) : Plan :=
  let ending :=
    if arguments.run then runEnding arguments report output
    else compiledEnding arguments report output
  match arguments.output with
  | .absent => .only ending
  | .given path => ⟨some (path, output), ending⟩
  | .blank => .only (.fails .blankOutput)

def sourcePlan (arguments : Arguments) (options : Options) (source : String) : Plan :=
  match compile options (some arguments.source.text) source with
  | .error fault => .only (.fails (.literal fault))
  | .ok result =>
    match result.output with
    | none => .only (rejection arguments.json result.report.diagnostics)
    | some output => outputPlan arguments result.report output

/-- What the command does, given the contents of the configuration file, if one is named, and of
the source. -/
def plan (arguments : Arguments) (config source : FileContents) : Plan :=
  match options arguments config with
  | .error error => .only (configEnding arguments error)
  | .ok options =>
    match sourceText arguments source with
    | .error ending => .only ending
    | .ok text => sourcePlan arguments options text

end LoopCapture.Command
