import EventModel.Diagram.Basic
import EventModel.Document.Coordinates
import EventModel.Document.Fault
import EventModel.Document.Field

/-!
# Declarations

The payload of a statement is read as what its directive declares, or refused with a fault.
Reading looks at the directive and the payload alone, so it cannot depend on where in the
document they stand.
-/

namespace EventModel

/-- What a statement declares. -/
inductive Declaration
  | description (text : String)
  | level (value : UInt32)
  | element (id : ElementId) (typeName name : String) (cell : Cell)
  | note (first : String)
  | slice (kind : SliceKind) (name : String) (columns : ColumnSet)
  | flow (direction : FlowDirection) (source target : ElementId)
deriving DecidableEq, Repr

namespace Declaration

open Document

/-- The text between two double quotes, unless it is empty. -/
def quotedText? (text : List Char) : Option String :=
  match text with
  | '"' :: rest =>
    if rest.getLast? = some '"' ∧ rest.dropLast ≠ [] then some (String.ofList rest.dropLast)
    else none
  | _ => none

/-- A description is a quoted text. -/
def readDescription (payload : List Char) : Except Fault Declaration :=
  match quotedText? (Text.trim payload) with
  | some text => .ok (.description text)
  | none => .error .unquotedDescription

/-- A level is an unsigned integer. -/
def readLevel (payload : List Char) : Except Fault Declaration :=
  match Text.unsigned? payload with
  | some value => .ok (.level value)
  | none => .error (.nonNumericLevel (Text.Fragment.trim ⟨0, payload⟩).span)

/-- The fields that make up the coordinates of an element, given the first of them and those
that follow.  A semicolon or colon in the first makes it complete; without one a comma may
have divided the coordinates, and everything up to the end belongs to them. -/
def coordinateFields (first : Text.Fragment) (others : List Text.Fragment) :
    List Text.Fragment :=
  if first.text.any Cell.isSeparator then [first] else first :: others

/-- Reads the coordinates of an element from its fourth and all further fields. -/
def readCell (first : Text.Fragment) (others : List Text.Fragment) : Except Fault Cell :=
  let used := coordinateFields first others
  let written := [','].intercalate (used.map (·.text))
  let range := Span.ofBounds first.offset (used.getLast?.getD first).stop
  match Cell.read written with
  | .ok cell => .ok cell
  | .error .format => .error (.malformedCoordinates (String.ofList written) range)
  | .error .nonNumeric => .error (.nonNumericCoordinates (String.ofList written) range)

/-- An element has an id, a type, a name and coordinates. -/
def readElement (payload : List Char) : Except Fault Declaration :=
  match fields payload with
  | id :: typeName :: name :: first :: others =>
    match Text.unsigned? id.text with
    | none => .error (.nonNumericId id)
    | some value =>
      (readCell first others).map fun cell =>
        .element value (String.ofList typeName.text) (String.ofList (unquote name.text)) cell
  | few => .error (.tooFewElementFields few.length)

/-- A slice has a kind, a name and at least one column; fields after the name that are no
integers are passed over. -/
def readSlice (payload : List Char) : Except Fault Declaration :=
  match fields payload with
  | kind :: name :: first :: others =>
    match SliceKind.ofText? (String.ofList kind.text) with
    | none => .error (.unknownSliceKind kind)
    | some value =>
      let name := String.ofList (unquote name.text)
      match (first :: others).filterMap fun field => Text.signed? field.text with
      | [] => .error (.sliceWithoutColumns name)
      | columns => .ok (.slice value name (ColumnSet.ofList columns))
  | few => .error (.tooFewSliceFields few.length)

/-- Takes spaces and tabs. -/
def spaces : Text.Reader := .takeTill fun c => !Text.isSpaceOrTab c

/-- Takes the word between the ids of a flow, with spaces or tabs on both sides. -/
def joint : Text.Reader :=
  .andThen spaces.nonempty (.andThen (.word ['t', 'o']) spaces.nonempty)

/-- The ids that a flow joins: two numbers with the word `to` between them.  Nothing but spaces
and tabs may stand in front or behind. -/
def endpoints? (payload : List Char) : Option (ElementId × ElementId) := do
  let lead ← spaces.read? payload
  let source ← Text.readNatural32? lead.2
  let between ← joint.read? source.2
  let target ← Text.readNatural32? between.2
  let tail ← spaces.read? target.2
  if tail.2.isEmpty then some (source.1, target.1) else none

/-- A flow joins two ids. -/
def readFlow (direction : FlowDirection) (payload : List Char) : Except Fault Declaration :=
  match endpoints? payload with
  | some (source, target) => .ok (.flow direction source target)
  | none => .error (.malformedFlow direction)

/-- Reads the payload of a directive. -/
def read (directive : Directive) (payload : List Char) : Except Fault Declaration :=
  match directive with
  | .description => readDescription payload
  | .level => readLevel payload
  | .element => readElement payload
  | .text => .ok (.note (String.ofList (Text.trim payload)))
  | .slice => readSlice payload
  | .flow => readFlow .forward payload
  | .backFlow => readFlow .backward payload

end Declaration

/-- What a statement declares, or why it is refused. -/
def Statement.declaration (s : Statement) : Except Fault Declaration :=
  match s.directive with
  | some directive => Declaration.read directive s.payload
  | none => .error .unknownDirective

end EventModel
