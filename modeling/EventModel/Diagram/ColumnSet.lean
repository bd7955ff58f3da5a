/-!
# Sets of columns

A set of columns is listed in ascending order and holds no column twice, however often and
in whatever order the columns were named.
-/

namespace EventModel

/-- Puts a column into its place in an ascending list. -/
private def insertColumn (c : Int32) : List Int32 → List Int32
  | [] => [c]
  | d :: ds => if c < d then c :: d :: ds else if c = d then d :: ds else d :: insertColumn c ds

private theorem mem_insertColumn {c x : Int32} {ds : List Int32} :
    x ∈ insertColumn c ds ↔ x = c ∨ x ∈ ds := by
  induction ds with
  | nil => simp [insertColumn]
  | cons d ds ih =>
    unfold insertColumn
    split
    · simp
    · split
      next eq => simp [eq]
      next => simp [ih, or_left_comm]

private theorem ascending_insertColumn {c : Int32} {ds : List Int32}
    (h : ds.Pairwise (· < ·)) : (insertColumn c ds).Pairwise (· < ·) := by
  induction ds with
  | nil => simp [insertColumn]
  | cons d ds ih =>
    obtain ⟨hd, hds⟩ := List.pairwise_cons.1 h
    unfold insertColumn
    split
    next lt =>
      refine List.pairwise_cons.2 ⟨?_, h⟩
      intro x hx
      rcases List.mem_cons.1 hx with rfl | hx
      · exact lt
      · exact Int32.lt_trans lt (hd x hx)
    next nlt =>
      split
      next => exact h
      next ne =>
        refine List.pairwise_cons.2 ⟨?_, ih hds⟩
        intro x hx
        rcases mem_insertColumn.1 hx with rfl | hx
        · exact Int32.lt_of_le_of_ne (Int32.not_lt.1 nlt) (Ne.symm ne)
        · exact hd x hx

/-- A finite set of columns, listed in ascending order. -/
structure ColumnSet where
  toList : List Int32
  ascending : toList.Pairwise (· < ·)
deriving DecidableEq, Repr

namespace ColumnSet

/-- The set without columns. -/
def empty : ColumnSet := ⟨[], .nil⟩

/-- Adds a column. -/
def insert (s : ColumnSet) (c : Int32) : ColumnSet :=
  ⟨insertColumn c s.toList, ascending_insertColumn s.ascending⟩

/-- The set of the listed columns. -/
def ofList (cs : List Int32) : ColumnSet := cs.foldl insert empty

/-- Whether a column belongs to the set. -/
def contains (s : ColumnSet) (c : Int32) : Bool := s.toList.contains c

@[simp] theorem mem_toList_insert {s : ColumnSet} {c x : Int32} :
    x ∈ (s.insert c).toList ↔ x = c ∨ x ∈ s.toList :=
  mem_insertColumn

@[simp] theorem mem_toList_ofList {cs : List Int32} {x : Int32} :
    x ∈ (ofList cs).toList ↔ x ∈ cs := by
  suffices ∀ s : ColumnSet, x ∈ (cs.foldl insert s).toList ↔ x ∈ cs ∨ x ∈ s.toList by
    simpa [ofList, empty] using this empty
  induction cs with
  | nil => simp
  | cons c cs ih => intro s; simp [ih]; grind

end ColumnSet

end EventModel
