import EventModel.Diagnostic.Basic
import EventModel.Diagram.Flow
import EventModel.Source.Statement

/-!
# Faults

A fault is the reason why a statement adds nothing to the diagram.  It knows where in the
payload it lies, but not where the statement stands in the document; only the diagnostic
made of it does.  All wording of faults is in this module.
-/

namespace EventModel

/-- Why a statement is refused.  Ranges count the bytes of the payload. -/
inductive Fault
  | unknownDirective
  | unquotedDescription
  | nonNumericLevel (range : Span)
  | tooFewElementFields (found : Nat)
  | nonNumericId (written : Text.Fragment)
  | malformedCoordinates (written : String) (range : Span)
  | nonNumericCoordinates (written : String) (range : Span)
  | noteWithoutElement
  | tooFewSliceFields (found : Nat)
  | unknownSliceKind (written : Text.Fragment)
  | sliceWithoutColumns (name : String)
  | malformedFlow (direction : FlowDirection)
  | duplicateId (id : ElementId) (first : Line)
deriving DecidableEq, Repr

namespace Fault

/-- The code under which a fault is reported. -/
def code : Fault → Code
  | unknownDirective => .unknownDirective
  | unquotedDescription => .invalidDescription
  | nonNumericLevel _ => .invalidLevel
  | tooFewElementFields _ | tooFewSliceFields _ => .tooFewFields
  | nonNumericId _ => .nonNumericId
  | malformedCoordinates .. => .coordinateFormat
  | nonNumericCoordinates .. => .nonNumericCoordinates
  | noteWithoutElement => .textWithoutElement
  | unknownSliceKind _ => .unknownSliceKind
  | sliceWithoutColumns _ => .sliceWithoutColumns
  | malformedFlow _ => .invalidFlow
  | duplicateId .. => .duplicateId

/-- What a fault consists in. -/
def message : Fault → String
  | unknownDirective => "Unknown directive"
  | unquotedDescription => "Invalid DESCRIPTION (must be a quoted string)"
  | nonNumericLevel _ => "Invalid LEVEL (must be numeric)"
  | tooFewElementFields found => s!"Invalid ELEMENT syntax (expected 4 fields, found {found})"
  | nonNumericId written =>
    s!"Invalid element id `{String.ofList written.text}` (must be numeric)"
  | malformedCoordinates written _ => s!"Invalid coordinate format `{written}`"
  | nonNumericCoordinates written _ => s!"Non-numeric coordinates `{written}`"
  | noteWithoutElement => "TEXT without preceding ELEMENT"
  | tooFewSliceFields found =>
    s!"Invalid SLICE syntax (expected at least 3 fields, found {found})"
  | unknownSliceKind written => s!"Unknown slice type `{String.ofList written.text}`"
  | sliceWithoutColumns name => "SLICE \"" ++ name ++ "\" has no numeric columns"
  | malformedFlow direction => s!"Invalid {direction.keyword} syntax"
  | duplicateId id _ => s!"Duplicate element id {id}"

/-- How a fault can be mended. -/
def help? : Fault → Option String
  | unknownDirective =>
    some ("lines start with DESCRIPTION, LEVEL, ELEMENT, TEXT, SLICE, FLOW or BACK_FLOW " ++
      "followed by `:`")
  | unquotedDescription => some "write the description as `DESCRIPTION: \"text\"`"
  | tooFewElementFields _ =>
    some "use `ELEMENT: <id>, <Type>, \"<name>\", <column>;<row>`"
  | malformedCoordinates .. => some "write coordinates as `column;row`, for example `2;-1`"
  | noteWithoutElement => some "declare an ELEMENT before its TEXT block"
  | tooFewSliceFields _ => some "use `SLICE: <TYPE>, \"<name>\", <column>, ...`"
  | unknownSliceKind _ =>
    some "valid types are STATE_CHANGE, AUTOMATION, VIEW_STATE and TRANSLATION"
  | malformedFlow direction => some s!"use `{direction.keyword}: <id> to <id>`"
  | duplicateId .. => some "give every element a unique id"
  | nonNumericLevel _ | nonNumericId _ | nonNumericCoordinates .. | sliceWithoutColumns _ => none

/-- The places to point at when a fault is found in a statement. -/
def labels (s : Statement) : Fault → List Label
  | nonNumericLevel range => [here range "expected a non-negative integer"]
  | nonNumericId written => [here written.span "not a number"]
  | malformedCoordinates _ range => [here range "expected two parts"]
  | nonNumericCoordinates _ range => [here range "column and row must be integers"]
  | unknownSliceKind written => [here written.span "unknown slice type"]
  | duplicateId _ first =>
    [.primary s.line.span "duplicate definition",
     .secondary first.span s!"first defined on line {first.number}"]
  | _ => []
where
  here (range : Span) (message : String) : Label :=
    .primary (s.locate range.start range.stop) message

/-- The report of a fault in a statement. -/
def diagnostic (fault : Fault) (s : Statement) : Diagnostic where
  code := fault.code
  line := s.line
  message := fault.message
  labels := fault.labels s
  help := fault.help?

/-- Whatever is refused is an error. -/
theorem diagnostic_isError (fault : Fault) (s : Statement) :
    (fault.diagnostic s).isError = true := by
  cases fault <;> rfl

end Fault

end EventModel
