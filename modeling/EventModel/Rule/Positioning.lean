import EventModel.Diagram.Index
import EventModel.Rule.Violation

/-!
# Positioning

Three conventions hold for the places of elements: each stands in the band of rows of its
kind, no two stand in one cell, and the events of one command stand in consecutive columns.
-/

namespace EventModel.Positioning

/-! ## Bands of rows -/

/-- How the place of an element breaks the row conventions. -/
def rowViolation? (limit : Int32) (e : Element) : Option Violation :=
  match e.kind? with
  | none => some (.unrecognizedKind e)
  | some kind =>
    if (kind.band limit).contains e.row then none
    else some (.outsideBand e kind (kind.band limit))

/-- All breaches of the row conventions. -/
def rowViolations (elements : List Element) : List Violation :=
  elements.filterMap (rowViolation? (externalEventLimit elements))

/-! ## Shared cells -/

/-- The elements that stand in one cell, in the order of their declaration. -/
structure CellGroup where
  cell : Cell
  members : List Element
deriving DecidableEq, Repr

/-- Puts an element into the group of its cell.  The first element in a cell opens a group, after
all others. -/
def addToGroups (groups : List CellGroup) (e : Element) : List CellGroup :=
  match groups with
  | [] => [⟨e.cell, [e]⟩]
  | group :: rest =>
    if group.cell = e.cell then { group with members := group.members ++ [e] } :: rest
    else group :: addToGroups rest e

/-- The elements cell by cell. -/
def cellGroups (elements : List Element) : List CellGroup := elements.foldl addToGroups []

/-- Reports each member of a group that has to share its cell. -/
def sharedCellViolations (group : List Element) : List Violation :=
  if 1 < group.length then group.map fun e => .sharedCell e group else []

/-- All elements that share a cell, cell by cell. -/
def sharedCells (elements : List Element) : List Violation :=
  (cellGroups elements).flatMap fun group => sharedCellViolations group.members

/-! ## Branches -/

/-- The event to which a flow leads from a command, if it does. -/
def branchEvent? (d : Diagram) (command : Element) (f : Flow) : Option Element :=
  if f.direction = .forward ∧ f.source = command.id then
    (d.byId.get? f.target).filter (·.isKind .event)
  else
    none

/-- The events of a command, each once, in the order of the flows that lead to them. -/
def branch (d : Diagram) (command : Element) : List Element :=
  (d.flows.filterMap (branchEvent? d command)).eraseDupsBy fun a b => a.id == b.id

/-- Whether each of some ascending columns exceeds the one before it by at most one.  The difference
of columns wraps around if they are more than half of their range apart. -/
def noGap : List Int32 → Bool
  | a :: b :: rest => decide (b - a ≤ 1) && noGap (b :: rest)
  | _ => true

/-- Whether some elements stand in consecutive columns. -/
def areConsecutive (events : List Element) : Bool :=
  noGap ((events.map Element.column).mergeSort)

/-- Reports the events of a command if there is a gap between their columns. -/
def branchViolations (d : Diagram) (command : Element) : List Violation :=
  let events := branch d command
  if areConsecutive events then [] else events.map fun event => .branchGap event command

/-- All events in branches with gaps, command by command. -/
def branchGaps (d : Diagram) : List Violation :=
  (d.elements.filter (·.isKind .command)).flatMap (branchViolations d)

/-- All breaches of the positioning conventions. -/
def violations (d : Diagram) : List Violation :=
  rowViolations d.elements ++ sharedCells d.elements ++ branchGaps d

end EventModel.Positioning
