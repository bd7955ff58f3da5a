import EventModel.Diagram.Index
import EventModel.Rule.Violation

/-!
# Flow typing

The kinds of its endpoints decide whether a flow is allowed.  Two flows are worse than
merely not allowed, because no picture should show them: one straight from a screen to an
automation, and one backward other than from an event to a read model.
-/

namespace EventModel.FlowTyping

/-- The pairs of kinds between which a forward flow is allowed. -/
def allowedPairs : List (ElementKind × ElementKind) :=
  [(.screen, .command), (.automation, .command), (.command, .event), (.command, .automation),
   (.event, .readModel), (.readModel, .screen), (.readModel, .automation),
   (.externalEvent, .automation)]

/-- Whether a forward flow is allowed from one kind to another. -/
def isAllowed (source target : ElementKind) : Bool := allowedPairs.contains (source, target)

/-- Whether a forward flow is allowed between elements; unrecognized kinds allow none. -/
def joins (source target : Element) : Bool :=
  match source.kind?, target.kind? with
  | some a, some b => isAllowed a b
  | _, _ => false

/-- The reason why a flow must not be drawn. -/
def rejection? (f : Flow) (source target : Element) : Option Violation :=
  match f.direction with
  | .forward =>
    if source.isKind .screen && target.isKind .automation then
      some (.screenToAutomation f source target)
    else none
  | .backward =>
    if source.isKind .event && target.isKind .readModel then none
    else some (.backFlow f source target)

/-- The reason why a flow is not allowed. -/
def violation? (f : Flow) (source target : Element) : Option Violation :=
  match rejection? f source target with
  | some v => some v
  | none =>
    if f.direction = .backward ∨ joins source target then none
    else some (.disallowedFlow f source target)

/-- The breach that a flow of a diagram makes up.  A flow to or from nowhere is none. -/
def flowViolation? (d : Diagram) (f : Flow) : Option Violation :=
  match d.byId.get? f.source, d.byId.get? f.target with
  | some source, some target => violation? f source target
  | _, _ => none

/-- All flows that are not allowed. -/
def violations (d : Diagram) : List Violation := d.flows.filterMap (flowViolation? d)

end EventModel.FlowTyping
