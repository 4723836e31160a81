import LoopCapture.Program.Build
import LoopCapture.Wrapping.Basic

/-!
Compilation of a program text.

A text is read, its scopes are resolved and its loops are wrapped. Any error in one of these steps
ends the compilation without an output text.
-/

set_option autoImplicit false

namespace LoopCapture

structure Compilation where
  output : Option String
  report : Report
  /-- The program as the last step left it, if the text is a program. -/
  program : Option Wrapping

namespace Compilation

def ok (result : Compilation) : Bool := !result.report.hasErrors

def exitCode (result : Compilation) : Nat := if result.ok then 0 else 1

/-- The loops whose bodies have been wrapped, in the order of wrapping. -/
def rewritten (result : Compilation) : List Node :=
  match result.program with
  | none => []
  | some program =>
    program.wrapped.filterMap fun id => (program.outline.subtree? id).map (·.label.node)

def parseDiagnostic (error : ParseError) : Diagnostic :=
  { message := error.message
    code := some "E-PARSE"
    phase := some "parser"
    span := error.loc.span none }

def ofProgram (options : Options) (file : Option String) (source : List Char) (program : Program) :
    Compilation :=
  let wrapping := Wrapping.ofOutline source (.ofProgram program)
  let report := wrapping.resolution.conflicts.foldl
    (fun report ident => report.add (redeclarationDiagnostic ident)) (.empty file)
  if report.hasErrors then ⟨none, report, some wrapping⟩
  else
    let (wrapping, report) := Wrapping.run options.mode (wrapping, report)
    ⟨if report.hasErrors then none else some wrapping.insertions.render, report, some wrapping⟩

end Compilation

/-- Compiles a text. Errors in the text are reported; only a literal without a value leaves no
result. -/
def compile (options : Options) (file : Option String) (source : String) :
    Except LiteralFault Compilation :=
  match Program.ofText source.toList with
  | .error (.literal fault) => .error fault
  | .error (.parse error) =>
    .ok ⟨none, (Report.empty file).add (Compilation.parseDiagnostic error), none⟩
  | .ok program => .ok (.ofProgram options file source.toList program)

end LoopCapture
