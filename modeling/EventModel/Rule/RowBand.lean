import EventModel.Diagram.Basic

/-!
# Bands of rows

Each kind of element has a band of rows in which it belongs: what triggers commands stands
above row zero, commands and read models on it, events below it, and external events below
every event.  Only the last band depends on the diagram.  Rows are numbers of 32 bits, so the row
below the lowest one is the highest.
-/

namespace EventModel

/-- A band of rows, given by the bound that is nearest to all rows outside of it. -/
inductive RowBand
  | atLeast (row : Int32)
  | exactly (row : Int32)
  | atMost (row : Int32)
deriving DecidableEq, Repr

namespace RowBand

/-- The row of the band that an element outside of it should be moved to. -/
def bound : RowBand → Int32
  | atLeast row | exactly row | atMost row => row

/-- Whether a row lies in the band. -/
def contains (band : RowBand) (row : Int32) : Bool :=
  match band with
  | atLeast low => decide (low ≤ row)
  | exactly only => row == only
  | atMost high => decide (row ≤ high)

@[simp] theorem contains_bound (band : RowBand) : band.contains band.bound = true := by
  cases band <;> simp [contains, bound]

end RowBand

namespace Element

/-- The row in which an element stands. -/
def row (e : Element) : Int32 := e.cell.row

/-- The column in which an element stands. -/
def column (e : Element) : Int32 := e.cell.column

end Element

/-- The lowest row in which an event stands. -/
def lowestEventRow? (elements : List Element) : Option Int32 :=
  ((elements.filter (·.isKind .event)).map Element.row).min?

/-- The highest row for external events: the one below the lowest event, and never above row -2.
If an event stands in the lowest row of all, the row below it wraps around, and row -2 is left as
the limit. -/
def externalEventLimit (elements : List Element) : Int32 :=
  (lowestEventRow? elements).elim (-2) fun lowest => min (lowest - 1) (-2)

/-- The band in which a kind of element belongs, given the highest row for external
events. -/
def ElementKind.band (limit : Int32) : ElementKind → RowBand
  | .screen | .automation => .atLeast 1
  | .command | .readModel => .exactly 0
  | .event => .atMost (-1)
  | .externalEvent => .atMost limit

end EventModel
