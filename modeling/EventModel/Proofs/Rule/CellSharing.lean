import EventModel.Proofs.Rule.Ordering
import Mathlib.Data.List.Nodup

/-!
# Shared cells

An element shares its cell if another element stands there.  The groups that are kept for the cells
lead to a report on each such element and on no other (`mem_crowd`, `nodup_crowd`), and what a
report says of the others in the cell is what can be said of all pairs (`sharedCells_reported`).
-/

namespace EventModel.Positioning

/-- Another element stands in the same cell. -/
def IsCrowded (elements : List Element) (e : Element) : Prop :=
  ∃ other ∈ elements, other ≠ e ∧ other.cell = e.cell

instance (elements : List Element) (e : Element) : Decidable (IsCrowded elements e) :=
  inferInstanceAs (Decidable (∃ other ∈ elements, _))

/-- The other elements in the cell of an element. -/
def neighbours (elements : List Element) (e : Element) : List Element :=
  elements.filter fun other => other ≠ e ∧ other.cell = e.cell

/-- The elements that share their cells, cell by cell. -/
def crowd (elements : List Element) : List Element :=
  (occupiedCells elements).flatMap fun cell =>
    if 1 < (occupants elements cell).length then occupants elements cell else []

/-- What is reported on an element that shares its cell: the names of all elements there, and the
lines of the others. -/
def sharingReport (elements : List Element) (e : Element) : Diagnostic where
  code := .sharedPosition
  line := e.origin
  message := s!"Multiple elements share the same position ({e.cell}): " ++
    ", ".intercalate ((occupants elements e.cell).map fun other => quoteName other.name)
  labels := (neighbours elements e).map fun other =>
    .secondary other.origin.span s!"{quoteName other.name} is also at {e.cell}"

/-! ## Members -/

section Members

variable {elements : List Element}

theorem neighbours_eq_filter (e : Element) :
    neighbours elements e = (occupants elements e.cell).filter (· ≠ e) := by
  rw [neighbours, occupants, List.filter_filter]
  apply List.filter_congr
  intro other _
  rw [Bool.eq_iff_iff]
  simp

theorem length_neighbours (hnodup : elements.Nodup) {e : Element} (he : e ∈ elements) :
    (neighbours elements e).length + 1 = (occupants elements e.cell).length := by
  have hmem : e ∈ occupants elements e.cell := mem_occupants.2 ⟨he, rfl⟩
  have hgroup : (occupants elements e.cell).Nodup := hnodup.filter _
  have herase : neighbours elements e = (occupants elements e.cell).erase e := by
    rw [neighbours_eq_filter, hgroup.erase_eq_filter]
    apply List.filter_congr
    intro other _
    rw [Bool.eq_iff_iff]
    simp
  have hpos : 0 < (occupants elements e.cell).length := List.length_pos_of_mem hmem
  rw [herase, List.length_erase_of_mem hmem]
  omega

theorem isCrowded_iff (hnodup : elements.Nodup) {e : Element} (he : e ∈ elements) :
    IsCrowded elements e ↔ 1 < (occupants elements e.cell).length := by
  rw [← length_neighbours hnodup he, Nat.lt_add_left_iff_pos, List.length_pos_iff_exists_mem]
  simp only [IsCrowded, neighbours, List.mem_filter, decide_eq_true_eq]

theorem mem_crowd (hnodup : elements.Nodup) {e : Element} :
    e ∈ crowd elements ↔ e ∈ elements ∧ IsCrowded elements e := by
  rw [crowd, List.mem_flatMap]
  constructor
  · rintro ⟨cell, -, he⟩
    split at he
    · rename_i hshared
      obtain ⟨hmem, rfl⟩ := mem_occupants.1 he
      exact ⟨hmem, (isCrowded_iff hnodup hmem).2 hshared⟩
    · exact absurd he List.not_mem_nil
  · rintro ⟨he, hcrowded⟩
    refine ⟨e.cell, mem_occupiedCells.2 ⟨e, he, rfl⟩, ?_⟩
    rw [if_pos ((isCrowded_iff hnodup he).1 hcrowded)]
    exact mem_occupants.2 ⟨he, rfl⟩

theorem cell_of_mem_group {cell : Cell} {e : Element}
    (h : e ∈ if 1 < (occupants elements cell).length then occupants elements cell else []) :
    e.cell = cell := by
  split at h
  · exact (mem_occupants.1 h).2
  · exact absurd h List.not_mem_nil

theorem nodup_crowd (hnodup : elements.Nodup) : (crowd elements).Nodup := by
  rw [crowd, List.nodup_flatMap]
  constructor
  · intro cell _
    split
    · exact hnodup.filter _
    · exact List.nodup_nil
  · refine (nodup_occupiedCells elements).imp fun hne => ?_
    intro e he he'
    exact hne ((cell_of_mem_group he).symm.trans (cell_of_mem_group he'))

/-! ## Order -/

/-- The elements of one cell are not separated, and stay in the order of their declaration. -/
theorem occupants_isInfix_crowd (hnodup : elements.Nodup) {e : Element} (h : e ∈ crowd elements) :
    occupants elements e.cell <:+: crowd elements := by
  obtain ⟨he, hcrowded⟩ := (mem_crowd hnodup).1 h
  obtain ⟨front, back, hcells⟩ := List.append_of_mem (mem_occupiedCells.2 ⟨e, he, rfl⟩)
  rw [crowd, hcells, List.flatMap_append, List.flatMap_cons,
    if_pos ((isCrowded_iff hnodup he).1 hcrowded), ← List.append_assoc]
  exact List.infix_append _ _ _

theorem pairwise_idxOf_crowd :
    (crowd elements).Pairwise fun a b =>
      (elements.map (·.cell)).idxOf a.cell ≤ (elements.map (·.cell)).idxOf b.cell := by
  have hcells := pairwise_idxOf_eraseDupsBy_key id (elements.map (·.cell))
  rw [List.map_id, List.map_id] at hcells
  rw [crowd, List.pairwise_flatMap]
  constructor
  · intro cell _
    refine List.pairwise_of_forall_mem_list fun a ha b hb => ?_
    rw [cell_of_mem_group ha, cell_of_mem_group hb]
  · refine hcells.imp fun hlt a ha b hb => ?_
    rw [cell_of_mem_group ha, cell_of_mem_group hb]
    exact hlt.le

end Members

/-! ## Reports -/

theorem diagnostic_sharedCell {elements : List Element} (hid : (elements.map Element.id).Nodup)
    {e : Element} (he : e ∈ elements) :
    (Violation.sharedCell e (occupants elements e.cell)).diagnostic = sharingReport elements e := by
  have hothers : (occupants elements e.cell).filter (·.id != e.id) = neighbours elements e := by
    rw [neighbours_eq_filter]
    apply List.filter_congr
    intro other hother
    have hmem := (mem_occupants.1 hother).1
    have hsame : other.id = e.id ↔ other = e :=
      ⟨fun h => List.inj_on_of_nodup_map hid hmem he h, fun h => by rw [h]⟩
    rw [Bool.eq_iff_iff]
    simp [hsame]
  simp only [Violation.diagnostic, Violation.labels, hothers]
  rfl

theorem map_diagnostic_sharedCells {elements : List Element}
    (hid : (elements.map Element.id).Nodup) :
    (sharedCells elements).map Violation.diagnostic =
      (crowd elements).map (sharingReport elements) := by
  rw [sharedCells_eq, crowd, List.map_flatMap, List.map_flatMap]
  apply List.flatMap_congr
  intro cell _
  rw [sharedCellViolations]
  split
  · rw [List.map_map]
    apply List.map_congr_left
    intro e he
    obtain ⟨hmem, rfl⟩ := mem_occupants.1 he
    exact diagnostic_sharedCell hid hmem
  · rfl

/-- A list of the elements that share their cells: each stands in it once, all elements of a cell
stand together in the order of their declaration, and cells come in the order in which their first
elements are declared. -/
structure ListsCrowd (elements listed : List Element) : Prop where
  members : listed.Perm (elements.filter fun e => IsCrowded elements e)
  together : ∀ e ∈ listed, occupants elements e.cell <:+: listed
  ordered : listed.Pairwise fun a b =>
    (elements.map (·.cell)).idxOf a.cell ≤ (elements.map (·.cell)).idxOf b.cell

theorem listsCrowd_crowd {elements : List Element} (hnodup : elements.Nodup) :
    ListsCrowd elements (crowd elements) where
  members := by
    rw [List.perm_ext_iff_of_nodup (nodup_crowd hnodup) (hnodup.filter _)]
    intro e
    rw [mem_crowd hnodup, List.mem_filter, decide_eq_true_iff]
  together _ := occupants_isInfix_crowd hnodup
  ordered := pairwise_idxOf_crowd

/-- **Every element that shares its cell is reported once.**  If no id is used twice, what is
reported on shared cells is one report on each element with another element in its cell, cell by
cell.  It names all elements in the cell, in the order of their declaration, and points to the lines
of the others, as many as there are others. -/
theorem sharedCells_reported {d : Diagram} (hid : (d.elements.map Element.id).Nodup) :
    d.reportsUnder .sharedPosition = (crowd d.elements).map (sharingReport d.elements) ∧
      ListsCrowd d.elements (crowd d.elements) ∧
      ∀ e ∈ crowd d.elements,
        e ∈ occupants d.elements e.cell ∧
          (sharingReport d.elements e).labels.length + 1 =
            (occupants d.elements e.cell).length := by
  have hnodup : d.elements.Nodup := hid.of_map
  refine ⟨?_, listsCrowd_crowd hnodup, fun e he => ?_⟩
  · rw [Diagram.reportsUnder_sharedPosition, map_diagnostic_sharedCells hid]
  · obtain ⟨hmem, -⟩ := (mem_crowd hnodup).1 he
    refine ⟨mem_occupants.2 ⟨hmem, rfl⟩, ?_⟩
    rw [sharingReport, List.length_map]
    exact length_neighbours hnodup hmem

/-- Two cells with two elements each and one with three, declared in turns, and an element alone. -/
def packed : Diagram :=
  let line (n : Nat) : Line := ⟨n, "", ⟨n, n, Nat.le_refl n⟩⟩
  let element (n : Nat) (name : String) (row column : Int32) : Element :=
    ⟨.ofNat n, "Event", name, ⟨row, column⟩, line n, none⟩
  { elements :=
      [element 1 "A" (-1) 3, element 2 "B" (-1) 1, element 3 "C" (-2) 1, element 4 "D" (-1) 3,
       element 5 "E" 0 0, element 6 "F" (-2) 1, element 7 "G" (-1) 1, element 8 "H" (-1) 3] }

theorem sharedCells_reported_packed :
    (packed.elements.map Element.id).Nodup ∧
      (packed.reportsUnder .sharedPosition).map (·.line.number) = [1, 4, 8, 2, 7, 3, 6] ∧
      (packed.reportsUnder .sharedPosition).map (·.labels.length) = [2, 2, 2, 1, 1, 1, 1] ∧
      ListsCrowd packed.elements (crowd packed.elements) := by
  have hid : (packed.elements.map Element.id).Nodup := by decide +kernel
  obtain ⟨hreports, hlists, -⟩ := sharedCells_reported hid
  refine ⟨hid, ?_, ?_, hlists⟩
  · rw [hreports]
    decide +kernel
  · rw [hreports]
    decide +kernel

end EventModel.Positioning
