import EventModel.Check.Report

/-!
# Notices

A notice is what is shown of a problem to whoever runs a check: a text, and for diagnostics
the places in the document to underline.  The whole line is underlined as the place of a
fault unless the diagnostic names a more precise one.
-/

namespace EventModel

/-- A stretch of the document to underline, with a remark. -/
structure Underline where
  offset : Nat
  length : Nat
  message : String
  isPrimary : Bool
deriving DecidableEq, Repr

/-- The underlining of a span. -/
def Underline.ofLabel (l : Label) : Underline :=
  ⟨l.span.start, l.span.length, l.message, l.isPrimary⟩

/-- What is shown of a problem. -/
inductive Notice
  | problem (diagnostic : Diagnostic)
  | failure (cause : Failure)
deriving DecidableEq, Repr

namespace Diagnostic

/-- The labels to show: in front of them the whole line, if none of them is primary. -/
def shownLabels (d : Diagnostic) : List Label :=
  if d.labels.any Label.isPrimary then d.labels
  else .primary d.line.span d.code.description :: d.labels

/-- The stretches of the document to underline. -/
def underlines (d : Diagnostic) : List Underline := d.shownLabels.map Underline.ofLabel

end Diagnostic

namespace Notice

/-- The text of a notice. -/
def text : Notice → String
  | problem d => s!"line {d.line.number}: {d.message}"
  | failure cause => cause.message

/-- The code of a notice. -/
def code? : Notice → Option String
  | problem d => some d.code.text
  | failure (.file _) => some "eventgrid::io"
  | failure (.configuration _) => some "eventgrid::config"
  | failure (.diagnostics ..) => none

/-- The severity of a notice. -/
def severity? : Notice → Option Severity
  | problem d => some d.severity
  | failure _ => none

/-- How the problem can be mended. -/
def help? : Notice → Option String
  | problem d => d.help
  | failure _ => none

/-- Whether the document is shown with the notice. -/
def showsSource : Notice → Bool
  | problem _ => true
  | failure _ => false

/-- What is underlined in the document. -/
def underlines? : Notice → Option (List Underline)
  | problem d => some d.underlines
  | failure _ => none

/-- What lies behind the notice, where that is another error. -/
def cause? : Notice → Option String
  | failure (.file fault) => some fault.message
  | _ => none

/-- The notices for some diagnostics. -/
def ofDiagnostics (ds : List Diagnostic) : List Notice := ds.map problem

/-- The notices for a failure: one for each diagnostic, or else one for the failure. -/
def ofFailure : Failure → List Notice
  | .diagnostics found _ => ofDiagnostics found
  | other => [failure other]

end Notice

end EventModel
