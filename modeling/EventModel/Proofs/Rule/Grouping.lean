import EventModel.Proofs.Lists
import EventModel.Rule.Positioning

/-!
# Elements cell by cell

Elements are put into the groups of their cells one after the other.  In the end there is a group
for each occupied cell, in the order in which the cells were first occupied, and the group of a cell
holds all elements that stand there (`cellGroups_eq`).
-/

namespace EventModel.Positioning

/-- The occupied cells, in the order in which each is first occupied. -/
def occupiedCells (elements : List Element) : List Cell := (elements.map (·.cell)).eraseDups

/-- The elements in a cell. -/
def occupants (elements : List Element) (cell : Cell) : List Element :=
  elements.filter (·.cell == cell)

theorem mem_occupants {elements : List Element} {cell : Cell} {e : Element} :
    e ∈ occupants elements cell ↔ e ∈ elements ∧ e.cell = cell := by
  rw [occupants, List.mem_filter, beq_iff_eq]

theorem mem_occupiedCells {elements : List Element} {cell : Cell} :
    cell ∈ occupiedCells elements ↔ ∃ e ∈ elements, e.cell = cell := by
  rw [occupiedCells, List.mem_eraseDups, List.mem_map]

theorem nodup_occupiedCells (elements : List Element) : (occupiedCells elements).Nodup :=
  pairwise_eraseDupsBy_key id _

theorem occupiedCells_concat (elements : List Element) (e : Element) :
    occupiedCells (elements ++ [e]) =
      if e.cell ∈ occupiedCells elements then occupiedCells elements
      else occupiedCells elements ++ [e.cell] := by
  have hany : (occupiedCells elements).any (e.cell == ·) =
      decide (e.cell ∈ occupiedCells elements) := by
    rw [← List.contains_eq_any_beq, List.contains_eq_mem]
  rw [occupiedCells, List.map_append, List.map_singleton, List.eraseDups, List.eraseDupsBy,
    eraseDupsBy_loop_concat]
  change (if (occupiedCells elements).any (e.cell == ·) = true then _ else _) = _
  rw [hany]
  simp only [decide_eq_true_eq]
  rfl

theorem occupants_concat (elements : List Element) (e : Element) (cell : Cell) :
    occupants (elements ++ [e]) cell =
      occupants elements cell ++ if e.cell = cell then [e] else [] := by
  rw [occupants, List.filter_append, ← occupants, List.filter_cons, List.filter_nil]
  simp only [beq_iff_eq]

/-- Of groups for different cells, at most one takes in an element. -/
theorem addToGroups_map {cells : List Cell} (h : cells.Nodup) (members : Cell → List Element)
    (e : Element) :
    addToGroups (cells.map fun cell => ⟨cell, members cell⟩) e =
      if e.cell ∈ cells then
        cells.map fun cell => ⟨cell, members cell ++ if e.cell = cell then [e] else []⟩
      else (cells.map fun cell => ⟨cell, members cell⟩) ++ [⟨e.cell, [e]⟩] := by
  induction cells with
  | nil => rfl
  | cons cell cells ih =>
      obtain ⟨hnew, hcells⟩ := List.nodup_cons.1 h
      rw [List.map_cons, addToGroups]
      by_cases hcell : cell = e.cell
      · have hrest : (cells.map fun cell' : Cell => CellGroup.mk cell' (members cell')) =
            cells.map fun cell' =>
              ⟨cell', members cell' ++ if e.cell = cell' then [e] else []⟩ := by
          apply List.map_congr_left
          intro cell' hcell'
          have hne : e.cell ≠ cell' := fun heq => hnew (hcell.trans heq ▸ hcell')
          rw [if_neg hne, List.append_nil]
        rw [if_pos hcell, if_pos (hcell ▸ List.mem_cons_self), List.map_cons, if_pos hcell.symm,
          ← hrest]
      · have hne : e.cell ≠ cell := Ne.symm hcell
        rw [if_neg hcell, ih hcells]
        by_cases hmem : e.cell ∈ cells
        · rw [if_pos hmem, if_pos (List.mem_cons_of_mem cell hmem), List.map_cons, if_neg hne,
            List.append_nil]
        · rw [if_neg hmem, if_neg (by simp [hne, hmem]), List.cons_append]

theorem cellGroups_eq (elements : List Element) :
    cellGroups elements =
      (occupiedCells elements).map fun cell => ⟨cell, occupants elements cell⟩ := by
  induction elements using List.reverseRecOn with
  | nil => rfl
  | append_singleton elements e ih =>
      rw [cellGroups, List.foldl_concat, ← cellGroups, ih,
        addToGroups_map (nodup_occupiedCells elements), occupiedCells_concat]
      simp only [occupants_concat]
      by_cases hmem : e.cell ∈ occupiedCells elements
      · rw [if_pos hmem, if_pos hmem]
      · rw [if_neg hmem, if_neg hmem, List.map_append, List.map_singleton, if_pos rfl]
        have hnone : occupants elements e.cell = [] := by
          rw [List.eq_nil_iff_forall_not_mem]
          intro other hother
          exact hmem (mem_occupiedCells.2 ⟨other, mem_occupants.1 hother⟩)
        rw [hnone, List.nil_append]
        congr 1
        apply List.map_congr_left
        intro cell hcell
        have hne : e.cell ≠ cell := fun heq => hmem (heq ▸ hcell)
        rw [if_neg hne, List.append_nil]

theorem sharedCells_eq (elements : List Element) :
    sharedCells elements =
      (occupiedCells elements).flatMap fun cell =>
        sharedCellViolations (occupants elements cell) := by
  rw [sharedCells, cellGroups_eq, List.flatMap_map]

end EventModel.Positioning
