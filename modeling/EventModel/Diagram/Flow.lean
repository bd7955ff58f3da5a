import EventModel.Diagram.Element

/-!
# Flows

A flow is a declared edge from one element to another, named by their ids.  The ids need
not exist.
-/

namespace EventModel

/-- Whether a flow follows the time axis or points back against it. -/
inductive FlowDirection
  | forward
  | backward
deriving DecidableEq, Repr

namespace FlowDirection

/-- The keyword that declares a flow of this direction. -/
def keyword : FlowDirection → String
  | forward => "FLOW"
  | backward => "BACK_FLOW"

end FlowDirection

/-- A declared edge between two elements, with the line that declares it. -/
structure Flow where
  source : ElementId
  target : ElementId
  direction : FlowDirection
  origin : Line
deriving DecidableEq, Repr

namespace Flow

/-- The flow as it is declared. -/
protected def toString (f : Flow) : String :=
  s!"{f.direction.keyword}: {f.source} to {f.target}"

instance : ToString Flow := ⟨Flow.toString⟩

end Flow

end EventModel
