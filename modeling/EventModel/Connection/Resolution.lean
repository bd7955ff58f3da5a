import EventModel.Connection.Basic
import EventModel.Rule.FlowTyping

/-!
# Resolution

Resolving a diagram turns its flows into connections, one after the other.  A flow is connected,
it is rejected because it must not be drawn, or it is dropped because one of its ends does not
exist.
-/

namespace EventModel

/-- The anchors of an edge between two cells.  Between rows, the edge joins the sides that
face each other as rows are numbered; inside a row it runs from right to left sides if it
leads to a later column, and below the boxes otherwise. -/
def anchorsBetween (source target : Cell) : Anchor × Anchor :=
  if target.row < source.row then (.bottom, .top)
  else if source.row < target.row then (.top, .bottom)
  else if source.column < target.column then (.right, .left)
  else (.bottom, .top)

namespace Flow

/-- The anchors of the edge that a flow draws; backward flows have fixed ones. -/
def anchors (f : Flow) (source target : Element) : Anchor × Anchor :=
  match f.direction with
  | .forward => anchorsBetween source.cell target.cell
  | .backward => (.left, .bottom)

/-- Backward flows are dashed. -/
def style (f : Flow) : LineStyle :=
  match f.direction with
  | .forward => .solid
  | .backward => .dashed

/-- The edge that a flow draws between two elements. -/
def connection (f : Flow) (source target : Element) : Connection :=
  let anchors := f.anchors source target
  { source := ⟨source.id, source.cell, anchors.1⟩
    target := ⟨target.id, target.cell, anchors.2⟩
    style := f.style }

end Flow

/-- What resolving has come to: an index of the elements by cell, and of the flows so far the
connections, the reports on those that were rejected, and those that were dropped. -/
structure Resolution where
  positions : Index Element.cell
  connections : List Connection := []
  rejections : List Diagnostic := []
  dropped : List Flow := []

/-- Resolves one more flow. -/
def Resolution.add (byId : Index Element.id) (r : Resolution) (f : Flow) : Resolution :=
  match byId.get? f.source, byId.get? f.target with
  | some source, some target =>
    match FlowTyping.rejection? f source target with
    | some reason => { r with rejections := r.rejections ++ [reason.diagnostic] }
    | none => { r with connections := r.connections ++ [f.connection source target] }
  | _, _ => { r with dropped := r.dropped ++ [f] }

namespace Diagram

/-- Resolves the flows of a diagram. -/
def resolve (d : Diagram) : Resolution :=
  d.flows.foldl (Resolution.add d.byId) { positions := .ofElements Element.cell d.elements }

/-- The connections of a diagram, in the order of the flows. -/
def connections (d : Diagram) : List Connection := d.resolve.connections

/-- What is reported in resolving a diagram, in the order of the flows. -/
def rejections (d : Diagram) : List Diagnostic := d.resolve.rejections

/-- The flows without one of their ends. -/
def droppedFlows (d : Diagram) : List Flow := d.resolve.dropped

/-- The elements that can be seen on the grid: of each occupied cell the one declared first,
in order of declaration. -/
def visibleElements (d : Diagram) : List Element := d.resolve.positions.elements

/-- The element that can be seen in a cell. -/
def elementAt? (d : Diagram) (cell : Cell) : Option Element := d.resolve.positions.get? cell

end Diagram

end EventModel
