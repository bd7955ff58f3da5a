import EventModel.Diagnostic.Code
import EventModel.Source.Line

/-!
# Diagnostics

A diagnostic reports one problem on one line of a document.  Its labels point at places in
the document: primary labels at the fault itself and secondary labels at what it has to do
with.
-/

namespace EventModel

/-- A remark on a place in the document. -/
structure Label where
  span : Span
  message : String
  isPrimary : Bool
deriving DecidableEq, Repr

namespace Label

/-- Marks the fault itself. -/
def primary (span : Span) (message : String) : Label := ⟨span, message, true⟩

/-- Marks a place that the fault has to do with. -/
def secondary (span : Span) (message : String) : Label := ⟨span, message, false⟩

/-- Whether the label marks something other than the fault itself. -/
def isSecondary (l : Label) : Bool := !l.isPrimary

end Label

/-- A report of one problem on one line. -/
structure Diagnostic where
  code : Code
  line : Line
  message : String
  labels : List Label := []
  help : Option String := none
deriving DecidableEq, Repr

namespace Diagnostic

/-- The category of the problem. -/
def category (d : Diagnostic) : Category := d.code.category

/-- The severity of the problem. -/
def severity (d : Diagnostic) : Severity := d.code.severity

/-- Whether the problem is an error. -/
def isError (d : Diagnostic) : Bool := d.severity == .error

/-- Two diagnostics are about the same problem when code and line number agree. -/
def sameProblem (d e : Diagnostic) : Bool := d.code == e.code && d.line.number == e.line.number

/-- The diagnostic in one line. -/
protected def toString (d : Diagnostic) : String :=
  s!"{d.severity.text}[{d.code.text}]: line {d.line.number}: {d.message}"

instance : ToString Diagnostic := ⟨Diagnostic.toString⟩

/-- A list of diagnostics in one line: the first, and how many more there are. -/
def summary : List Diagnostic → String
  | [] => ""
  | [d] => toString d
  | d :: ds => s!"{toString d} (+{ds.length} more)"

end Diagnostic

end EventModel
