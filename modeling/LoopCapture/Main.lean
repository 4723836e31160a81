import LoopCapture.Command.Basic

/-!
The command line program: it reads files, carries out the plan of the command and prints.
-/

set_option autoImplicit false

namespace LoopCapture.Command

def faultOf : IO.Error → FileFault
  | .noFileOrDirectory .. => .missing
  | .inappropriateType _ code _ => if code = 21 then .isDirectory else .notDirectory
  | .resourceExhausted _ code reason => if code = 36 then .nameTooLong else .other reason
  | error => .other (toString error)

def readFile (path : Path) : IO FileContents := do
  try
    return .ok (← IO.FS.readBinFile path.text).toList
  catch error =>
    return .error (faultOf error)

def readConfig (config : Setting Path) : IO FileContents := do
  match config with
  | .given path => readFile path
  | _ => return .ok []

def usage : String :=
  "usage: loop-capture [-h] [-o OUTPUT] [--json] [--config CONFIG] " ++
    "[--loop-closures \x7biife,error\x7d] [--run] source\n"

def Failure.message : Failure → String
  | .literal _ => "a literal has no value"
  | .output error => error.message
  | .stop (.jump _) _ => "a jump left the program"
  | .stop _ _ => "the program cannot go on"
  | .nulInPath => FileFault.nulInPath.reason
  | .encoding fault => fault.message
  | .number _ => "a number cannot be read"
  | .nesting => "the configuration is nested too deeply"
  | .blankOutput => "the output has no path"

def Ending.perform : Ending → IO UInt32
  | .exits code stdout stderr => do
    IO.print stdout
    IO.eprint stderr
    return code.toUInt32
  | .fails failure => do
    IO.eprintln failure.message
    return 1

def Plan.perform (plan : Plan) : IO UInt32 := do
  match plan.write with
  | none => plan.ending.perform
  | some (path, text) =>
    try
      IO.FS.writeFile path.text text
    catch error =>
      IO.eprintln s!"{path.text}: {(faultOf error).reason}"
      return 1
    plan.ending.perform

end LoopCapture.Command

open LoopCapture in
def main (args : List String) : IO UInt32 := do
  match Arguments.ofWords args with
  | .error .help =>
    IO.print Command.usage
    return 0
  | .error .usage =>
    IO.eprint Command.usage
    return 2
  | .ok arguments =>
    let config ← Command.readConfig arguments.config
    let source ← Command.readFile arguments.source
    (Command.plan arguments config source).perform
