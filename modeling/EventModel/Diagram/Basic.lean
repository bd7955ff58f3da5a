import EventModel.Diagram.Element
import EventModel.Diagram.Flow
import EventModel.Diagram.Slice

/-!
# Diagrams

A diagram holds everything a document declares, in order of declaration.  It may break any
rule: cells may be shared, flows may refer to nothing, and diagrams built by hand may use
an id twice.  Wherever an id is looked up, the element declared first has it.
-/

namespace EventModel

/-- Everything a document declares. -/
structure Diagram where
  description : Option String := none
  level : Option UInt32 := none
  elements : List Element := []
  flows : List Flow := []
  slices : List Slice := []
deriving DecidableEq, Repr

namespace Diagram

/-- The element that has an id. -/
def element? (d : Diagram) (id : ElementId) : Option Element := d.elements.find? (·.id == id)

/-- The smallest and the largest column in which an element stands. -/
def columnExtent? (d : Diagram) : Option (Int32 × Int32) :=
  let columns := d.elements.map (·.cell.column)
  match columns.min?, columns.max? with
  | some low, some high => some (low, high)
  | _, _ => none

/-- Whether nothing at all is declared. -/
def isEmpty (d : Diagram) : Bool :=
  d.elements.isEmpty && d.flows.isEmpty && d.slices.isEmpty && d.description.isNone &&
    d.level.isNone

end Diagram

/-- A text that was to name a kind and names none. -/
inductive UnknownKind
  | element (text : String)
  | slice (text : String)
deriving DecidableEq, Repr

namespace UnknownKind

/-- The text that names no kind. -/
def text : UnknownKind → String
  | element text | slice text => text

/-- The wording of the error. -/
def message : UnknownKind → String
  | element text => s!"unknown element type `{text}`"
  | slice text => s!"unknown slice type `{text}`"

end UnknownKind

/-- The kind of element that a text names. -/
def ElementKind.ofText (text : String) : Except UnknownKind ElementKind :=
  (ElementKind.ofText? text).elim (.error (.element text)) .ok

/-- The kind of slice that a text names. -/
def SliceKind.ofText (text : String) : Except UnknownKind SliceKind :=
  (SliceKind.ofText? text).elim (.error (.slice text)) .ok

end EventModel
