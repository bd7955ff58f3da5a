import EventModel.Rule.Violation

/-!
# Slice composition

The purpose of a slice decides which kinds of element its columns have to hold, and which
they must not.  Elements of unrecognized kind count for nothing.
-/

namespace EventModel

namespace SliceKind

/-- The roles that have to be played in a slice. -/
def roles : SliceKind → List SliceRole
  | stateChange | automation => [.trigger, .kind .command, .kind .event]
  | viewState => [.kind .readModel]
  | external =>
    [.kind .externalEvent, .kind .automation, .kind .command, .kind .event]

/-- Whether a slice must be free of events. -/
def excludesEvents : SliceKind → Bool
  | viewState => true
  | _ => false

end SliceKind

namespace Composition

/-- The kinds of the elements in the columns of a slice. -/
def kindsIn (elements : List Element) (s : Slice) : List ElementKind :=
  (elements.filter fun e => s.columns.contains e.cell.column).filterMap Element.kind?

/-- The roles of a slice that no element plays. -/
def missingRoles (kind : SliceKind) (present : List ElementKind) : List SliceRole :=
  kind.roles.filter fun role => !present.any role.isPlayedBy

/-- What is wrong with a slice that holds elements of the given kinds.  An event where none
belongs comes before anything missing. -/
def defect? (kind : SliceKind) (present : List ElementKind) : Option SliceDefect :=
  if kind.excludesEvents && present.contains .event then some .holdsEvent
  else
    match missingRoles kind present with
    | [] => none
    | roles => some (.lacks roles)

/-- The breach that a slice makes up. -/
def sliceViolation? (elements : List Element) (s : Slice) : Option Violation :=
  (defect? s.kind (kindsIn elements s)).map (.sliceDefect s)

/-- All slices that are not composed as their purpose demands. -/
def violations (d : Diagram) : List Violation :=
  d.slices.filterMap (sliceViolation? d.elements)

end Composition

end EventModel
