import LoopCapture.Source.Loc

/-!
Diagnostics, and reports that collect them in the order of reporting.

A pass never decides whether compilation stops: it adds diagnostics to a report and goes on.
-/

set_option autoImplicit false

namespace LoopCapture

structure Span where
  file : Option String := none
  line : Option Int := none
  column : Option Int := none
  start : Option Int := none
  stop : Option Int := none
  deriving DecidableEq, Repr

def Loc.span (loc : Loc) (file : Option String) : Span :=
  ⟨file, some loc.line, some loc.column, some loc.start, some loc.stop⟩

/-- A message about a source, with a code and the phase of compilation it comes from. -/
structure Diagnostic where
  message : String
  code : Option String := none
  phase : Option String := none
  severity : String := "error"
  span : Span := {}
  notes : List String := []
  deriving DecidableEq, Repr

namespace Diagnostic

def positionText : Option Int → String
  | some n => toString n
  | none => "?"

/-- The name of the file; a missing or empty one is an input without a name. -/
def fileText : Option String → String
  | some file => if file.isEmpty then "<input>" else file
  | none => "<input>"

/-- The text for a reader: file, line, column, severity and message, then a line for each note. -/
def render (d : Diagnostic) : String :=
  let position := s!"{fileText d.span.file}:{positionText d.span.line}:{positionText d.span.column}"
  let notes := d.notes.map ("\n  note: " ++ ·)
  s!"{position}: {d.severity}: {d.message}" ++ String.join notes

def isError (d : Diagnostic) : Bool :=
  d.severity == "error"

end Diagnostic

/-- Diagnostics about one file, in the order of reporting. -/
structure Report where
  file : Option String
  diagnostics : List Diagnostic
  deriving DecidableEq, Repr

namespace Report

def empty (file : Option String) : Report := ⟨file, []⟩

/-- The diagnostic as a report files it: a span without a file gets the file of the report. -/
def located (report : Report) (d : Diagnostic) : Diagnostic :=
  { d with span := { d.span with file := d.span.file.or report.file } }

def add (report : Report) (d : Diagnostic) : Report :=
  { report with diagnostics := report.diagnostics ++ [report.located d] }

def hasErrors (report : Report) : Bool :=
  report.diagnostics.any Diagnostic.isError

end Report

end LoopCapture
