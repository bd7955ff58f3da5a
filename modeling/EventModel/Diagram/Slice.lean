import EventModel.Diagram.ColumnSet
import EventModel.Source.Line
import EventModel.Text.Blank

/-!
# Slices

A slice groups columns of a diagram under a name and declares the purpose they serve.
-/

namespace EventModel

/-- The purpose that a slice declares: to change state on request or by itself, to show
state, or to take in what happens outside. -/
inductive SliceKind
  | stateChange
  | automation
  | viewState
  | external
deriving DecidableEq, Repr

namespace SliceKind

/-- All kinds of slice. -/
def all : List SliceKind := [stateChange, automation, viewState, external]

/-- The keyword of a kind of slice. -/
def keyword : SliceKind → String
  | stateChange => "STATE_CHANGE"
  | automation => "AUTOMATION"
  | viewState => "VIEW_STATE"
  | external => "TRANSLATION"

/-- The kind of slice that a text names.  Case does not matter, nor does white space at
either end. -/
def ofText? (text : String) : Option SliceKind :=
  let word := (Text.trim text.toList).map Char.toUpper
  all.find? fun kind => kind.keyword.toList == word

end SliceKind

/-- A named group of columns, with the line that declares it. -/
structure Slice where
  kind : SliceKind
  name : String
  columns : ColumnSet
  origin : Line
deriving DecidableEq, Repr

namespace Slice

/-- The slice as it is listed. -/
protected def toString (s : Slice) : String := s.kind.keyword ++ " \"" ++ s.name ++ "\""

instance : ToString Slice := ⟨Slice.toString⟩

end Slice

end EventModel
