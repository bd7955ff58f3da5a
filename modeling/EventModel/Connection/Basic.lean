import EventModel.Diagram.Element

/-!
# Connections

A connection is the form in which a flow is drawn: it joins two cells, and it says at which
side of either box the edge attaches.
-/

namespace EventModel

/-- The side of a box at which an edge attaches. -/
inductive Anchor
  | top
  | bottom
  | left
  | right
deriving DecidableEq, Repr

/-- The name of a side. -/
def Anchor.text : Anchor → String
  | .top => "top"
  | .bottom => "bottom"
  | .left => "left"
  | .right => "right"

/-- How an edge is drawn. -/
inductive LineStyle
  | solid
  | dashed
deriving DecidableEq, Repr

/-- The name of a line style. -/
def LineStyle.text : LineStyle → String
  | .solid => "solid"
  | .dashed => "dashed"

/-- One end of a connection. -/
structure Endpoint where
  id : ElementId
  cell : Cell
  anchor : Anchor
deriving DecidableEq, Repr

/-- The end of a connection in a cell. -/
protected def Endpoint.toString (e : Endpoint) : String :=
  s!"{e.id} ({e.cell}) {e.anchor.text}"

instance : ToString Endpoint := ⟨Endpoint.toString⟩

/-- An edge between two cells. -/
structure Connection where
  source : Endpoint
  target : Endpoint
  style : LineStyle
deriving DecidableEq, Repr

namespace Connection

/-- The connection as it is listed. -/
protected def toString (c : Connection) : String :=
  s!"{c.source} -> {c.target} [{c.style.text}]"

instance : ToString Connection := ⟨Connection.toString⟩

end Connection

end EventModel
