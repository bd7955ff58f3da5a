import EventModel.Diagram.Cell
import EventModel.Diagram.ElementKind
import EventModel.Diagram.Note
import EventModel.Source.Line

/-!
# Elements

An element is a named box on the grid.  It keeps the name of its kind as it was written,
recognized or not; the kind itself follows from that name.
-/

namespace EventModel

/-- The number by which flows refer to an element. -/
abbrev ElementId := UInt32

/-- A named box on the grid, with the line that declares it. -/
structure Element where
  id : ElementId
  typeName : String
  name : String
  cell : Cell
  origin : Line
  note : Option Note := none
deriving DecidableEq, Repr

namespace Element

/-- The kind of the element, if its type name is recognized. -/
def kind? (e : Element) : Option ElementKind := ElementKind.ofText? e.typeName

/-- Whether the element is of a given kind. -/
def isKind (e : Element) (kind : ElementKind) : Bool := e.kind? == some kind

/-- How messages call the element's type: canonically if it is recognized, and otherwise as
it was written. -/
def typeLabel (e : Element) : String := (e.kind?.map ElementKind.name).getD e.typeName

/-- The element as it is listed. -/
protected def toString (e : Element) : String :=
  "\"" ++ e.name ++ s!"\" ({e.typeLabel} #{e.id})"

instance : ToString Element := ⟨Element.toString⟩

end Element

end EventModel
