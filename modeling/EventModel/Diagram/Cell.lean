/-!
# Cells

Elements stand on a grid.  Columns run along the time axis and rows across it, with row zero
in the middle; both may be negative.  Coordinates are numbers of 32 bits.
-/

namespace EventModel

/-- A coordinate where a number without bounds is asked for. -/
instance instCoeInt32Int : Coe Int32 Int := ⟨Int32.toInt⟩

/-- A place on the grid. -/
structure Cell where
  row : Int32
  column : Int32
deriving DecidableEq, Repr

namespace Cell

/-- Coordinates are written with the column first. -/
protected def toString (cell : Cell) : String := s!"{cell.column};{cell.row}"

instance : ToString Cell := ⟨Cell.toString⟩

end Cell

end EventModel
