import EventModel.Diagram.Cell
import EventModel.Text.Decimal

/-!
# Coordinates

A cell is written as a column and a row with a separator between them: a semicolon, a colon
or, where there is neither in the right number, a comma.  White space does not matter, not
even inside of a number.
-/

namespace EventModel

/-- Why a text is no pair of coordinates. -/
inductive CoordinateFault
  | format
  | nonNumeric
deriving DecidableEq, Repr

namespace Cell

/-- Semicolons and colons separate coordinates alike. -/
def isSeparator (c : Char) : Bool := c == ';' || c == ':'

/-- The two parts of written coordinates. -/
def parts? (text : List Char) : Option (List Char × List Char) :=
  match text.splitOnP isSeparator, text.splitOn ',' with
  | [column, row], _ => some (column, row)
  | _, [column, row] => some (column, row)
  | _, _ => none

/-- Reads written coordinates. -/
def read (text : List Char) : Except CoordinateFault Cell :=
  match parts? (text.filter fun c => !Text.isBlank c) with
  | none => .error .format
  | some (column, row) =>
    match Text.signed? column, Text.signed? row with
    | some column, some row => .ok ⟨row, column⟩
    | _, _ => .error .nonNumeric

end Cell

end EventModel
