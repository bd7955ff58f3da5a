import EventModel.Diagnostic.Basic
import EventModel.Diagram.Basic
import EventModel.Rule.RowBand

/-!
# Violations

A violation is a breach of one of the modeling rules, with whatever takes part in it.  The
rules only find violations; how each is worded as a diagnostic is said here.
-/

namespace EventModel

/-- What can fill a place that a slice requires. -/
inductive SliceRole
  | trigger
  | kind (kind : ElementKind)
deriving DecidableEq, Repr

namespace SliceRole

/-- The name of a role. -/
def name : SliceRole → String
  | trigger => "Screen or Automation"
  | kind k => k.name

/-- Whether an element of a given kind plays the role. -/
def isPlayedBy (r : SliceRole) (k : ElementKind) : Bool :=
  match r with
  | trigger => k.isTrigger
  | kind required => k == required

end SliceRole

/-- What is wrong with the composition of a slice. -/
inductive SliceDefect
  | holdsEvent
  | lacks (roles : List SliceRole)
deriving DecidableEq, Repr

/-- A breach of a modeling rule. -/
inductive Violation
  | unrecognizedKind (element : Element)
  | outsideBand (element : Element) (kind : ElementKind) (band : RowBand)
  | sharedCell (element : Element) (group : List Element)
  | branchGap (event command : Element)
  | screenToAutomation (flow : Flow) (source target : Element)
  | backFlow (flow : Flow) (source target : Element)
  | disallowedFlow (flow : Flow) (source target : Element)
  | sliceDefect (slice : Slice) (defect : SliceDefect)
deriving DecidableEq, Repr

/-- A name as messages show it. -/
def quoteName (name : String) : String := "\"" ++ name ++ "\""

/-- The rule that puts a kind of element into its band of rows. -/
def ElementKind.rowRule : ElementKind → String
  | .screen => "Screens should be at row 1 or higher"
  | .automation => "Automations should be at row 1 or higher"
  | .command => "Commands should be at row 0"
  | .readModel => "ReadModels should be at row 0"
  | .event => "Events should be at row -1 or lower"
  | .externalEvent => "External Events should be below every Event and at row -2 or lower"

/-- What a kind of slice has to include. -/
def SliceKind.demand : SliceKind → String
  | .stateChange | .automation =>
    "must include a Screen or Automation, a Command and at least one Event"
  | .viewState => "must include at least one ReadModel"
  | .external => "must include an ExternalEvent, an Automation, a Command and an Event"

namespace SliceDefect

/-- What a slice with the defect fails to do. -/
def demand (kind : SliceKind) : SliceDefect → String
  | holdsEvent => "must not include any Event"
  | lacks _ => kind.demand

/-- How the defect can be mended. -/
def help : SliceDefect → String
  | holdsEvent => "move the events out of the slice's columns"
  | lacks roles => "missing: " ++ ", ".intercalate (roles.map SliceRole.name)

end SliceDefect

namespace Violation

/-- The code under which a violation is reported. -/
def code : Violation → Code
  | unrecognizedKind _ => .unrecognizedKind
  | outsideBand .. => .rowConvention
  | sharedCell .. => .sharedPosition
  | branchGap .. => .branchGap
  | screenToAutomation .. => .screenToAutomation
  | backFlow .. => .invalidBackFlow
  | disallowedFlow .. => .flowNotAllowed
  | sliceDefect .. => .incompleteSlice

/-- The line on which a violation is reported. -/
def line : Violation → Line
  | unrecognizedKind e | outsideBand e .. | sharedCell e _ | branchGap e _ => e.origin
  | screenToAutomation f .. | backFlow f .. | disallowedFlow f .. => f.origin
  | sliceDefect s _ => s.origin

/-- The endpoints of a flow as messages name them. -/
def endpointNames (source target : Element) : String :=
  s!"(from {quoteName source.name} to {quoteName target.name})"

/-- What a violation consists in. -/
def message : Violation → String
  | unrecognizedKind e =>
    s!"Element {quoteName e.name} has unrecognized type `{e.typeName}`; " ++
      "no row convention applies"
  | outsideBand e kind band =>
    s!"Element {quoteName e.name} should be positioned at row {band.bound}, " ++
      s!"but is at row {e.cell.row}. {kind.rowRule}"
  | sharedCell e group =>
    s!"Multiple elements share the same position ({e.cell}): " ++
      ", ".intercalate (group.map fun other => quoteName other.name)
  | branchGap event command =>
    s!"Element {quoteName event.name} should be positioned in consecutive columns with " ++
      s!"the other events of command {quoteName command.name}"
  | screenToAutomation _ source target =>
    s!"Invalid FLOW: SCREEN cannot be linked to AUTOMATION {endpointNames source target}"
  | backFlow _ source target =>
    s!"Invalid BACK_FLOW: {source.typeLabel} -> {target.typeLabel} " ++
      s!"{endpointNames source target}; only Event -> ReadModel is allowed"
  | disallowedFlow _ source target =>
    s!"Invalid FLOW: Not allowed from {source.typeLabel} to {target.typeLabel} " ++
      endpointNames source target
  | sliceDefect slice defect =>
    s!"Invalid {slice.kind.keyword} slice {quoteName slice.name}: {defect.demand slice.kind}"

/-- How a violation can be mended. -/
def help? : Violation → Option String
  | unrecognizedKind _ =>
    some "use one of Screen, Command, Event, ExternalEvent, ReadModel or Automation"
  | outsideBand _ _ band => some s!"move the element to row {band.bound}"
  | screenToAutomation .. => some "route the screen through a command instead"
  | backFlow .. => some "use FLOW for forward transitions"
  | sliceDefect _ defect => some defect.help
  | sharedCell .. | branchGap .. | disallowedFlow .. => none

/-- What else a violation points at: whoever shares the cell under another id, or the
command to which the events belong. -/
def labels : Violation → List Label
  | sharedCell e group =>
    (group.filter (·.id != e.id)).map fun other =>
      .secondary other.origin.span s!"{quoteName other.name} is also at {e.cell}"
  | branchGap _ command => [.secondary command.origin.span "command declared here"]
  | _ => []

/-- The report of a violation. -/
def diagnostic (v : Violation) : Diagnostic where
  code := v.code
  line := v.line
  message := v.message
  labels := v.labels
  help := v.help?

/-- A broken rule is a warning and never an error. -/
theorem diagnostic_isError (v : Violation) : v.diagnostic.isError = false := by
  cases v <;> rfl

end Violation

end EventModel
