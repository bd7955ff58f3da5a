import EventModel.Proofs.Rule.Violations
import Mathlib.Data.Int.Basic
import Mathlib.Data.List.Nodup

/-!
# Diagrams that break no rule

The bands of rows leave each kind of element on one side of row zero (`sign_of_contains_band`),
and every allowed flow leads from one side to another (`sides_of_isAllowed`).  Together with cells
of their own, this is what drawing relies on; the rules see to it that it holds
(`orderly_of_rules`).
-/

namespace EventModel

/-! ## Sides of row zero -/

namespace ElementKind

/-- The side of row zero on which a kind of element stands: above it, on it or below it. -/
def side : ElementKind → Int
  | screen | automation => 1
  | command | readModel => 0
  | event | externalEvent => -1

/-- External events stand below row zero because their limit does. -/
theorem sign_of_contains_band {kind : ElementKind} {limit row : Int32} (hlimit : limit ≤ -2)
    (h : (kind.band limit).contains row = true) : (row : Int).sign = kind.side := by
  cases kind with
  | screen | automation =>
      have hrow : (1 : Int) ≤ row := Int32.le_iff_toInt_le.1 (of_decide_eq_true h)
      exact Int.sign_eq_one_of_pos (by omega)
  | command | readModel =>
      have hrow : row = 0 := beq_iff_eq.1 h
      rw [hrow]
      rfl
  | event =>
      have hrow : (row : Int) ≤ -1 := Int32.le_iff_toInt_le.1 (of_decide_eq_true h)
      exact Int.sign_eq_neg_one_of_neg (by omega)
  | externalEvent =>
      have hrow : (row : Int) ≤ -2 :=
        Int32.le_iff_toInt_le.1 (Int32.le_trans (of_decide_eq_true h) hlimit)
      exact Int.sign_eq_neg_one_of_neg (by omega)

end ElementKind

/-- However low the events stand, the limit is not above row -2. -/
theorem externalEventLimit_le (elements : List Element) : externalEventLimit elements ≤ -2 := by
  rw [externalEventLimit]
  cases lowestEventRow? elements with
  | none => exact Int32.le_refl _
  | some lowest => exact Std.min_le_right

theorem lt_of_sign_lt {a b : Int} (h : a.sign < b.sign) : a < b := by
  rcases Int.lt_trichotomy a 0 with ha | rfl | ha
  · by_contra hle
    have hb : b < 0 := by omega
    rw [Int.sign_eq_neg_one_of_neg ha, Int.sign_eq_neg_one_of_neg hb] at h
    exact Int.lt_irrefl _ h
  · rw [Int.sign_zero] at h
    exact Int.sign_pos_iff.1 h
  · have hb := Int.sign_trichotomy b
    rw [Int.sign_eq_one_of_pos ha] at h
    omega

/-! ## What the rules ask -/

theorem Positioning.kind_of_no_rowViolations {elements : List Element}
    (h : rowViolations elements = []) {e : Element} (he : e ∈ elements) :
    ∃ kind, e.kind? = some kind ∧ (e.row : Int).sign = kind.side := by
  have hnone (v : Violation) : v ∉ rowViolations elements := by
    rw [h]
    exact List.not_mem_nil
  cases hkind : e.kind? with
  | none => exact absurd (mem_rowViolations.2 (Or.inl ⟨e, he, hkind, rfl⟩)) (hnone _)
  | some kind =>
      refine ⟨kind, rfl, ElementKind.sign_of_contains_band (externalEventLimit_le elements) ?_⟩
      by_contra hband
      rw [Bool.not_eq_true] at hband
      exact hnone _ (mem_rowViolations.2 (Or.inr ⟨e, he, kind, hkind, hband, rfl⟩))

theorem Positioning.eq_of_no_sharedCells {elements : List Element}
    (h : sharedCells elements = []) {a b : Element} (ha : a ∈ elements) (hb : b ∈ elements)
    (hcell : a.cell = b.cell) : a = b := by
  by_contra hne
  have hshared : 1 < (occupants elements b.cell).length :=
    one_lt_length_of_ne (mem_occupants.2 ⟨ha, hcell⟩) (mem_occupants.2 ⟨hb, rfl⟩) hne
  have hmem := mem_sharedCells.2 ⟨b, hb, hshared, rfl⟩
  rw [h] at hmem
  exact List.not_mem_nil hmem

/-! ## Allowed flows -/

namespace FlowTyping

/-- An allowed flow leads down to a command or an event, and up to anything else. -/
theorem sides_of_isAllowed {a b : ElementKind} (h : isAllowed a b = true) :
    ((b = .command ∨ b = .event) ∧ b.side < a.side) ∨
      ((b = .readModel ∨ b = .screen ∨ b = .automation) ∧ a.side < b.side) := by
  cases a <;> cases b <;> revert h <;> decide

theorem joins_of_forward {f : Flow} {source target : Element} (hf : f.direction = .forward)
    (h : violation? f source target = none) : joins source target = true := by
  unfold violation? at h
  split at h
  · exact absurd h (by simp)
  · split at h
    · rename_i hallowed
      rw [hf] at hallowed
      exact hallowed.resolve_left (by decide)
    · exact absurd h (by simp)

theorem kinds_of_backward {f : Flow} {source target : Element} (hf : f.direction = .backward)
    (h : violation? f source target = none) :
    source.kind? = some .event ∧ target.kind? = some .readModel := by
  unfold violation? at h
  split at h
  · exact absurd h (by simp)
  · rename_i hrejection
    unfold rejection? at hrejection
    rw [hf] at hrejection
    simp only at hrejection
    split at hrejection
    · rename_i hkinds
      rw [Bool.and_eq_true, Element.isKind, Element.isKind, beq_iff_eq, beq_iff_eq] at hkinds
      exact hkinds
    · exact absurd hrejection (by simp)

theorem exists_of_joins {source target : Element} (h : joins source target = true) :
    ∃ a b, source.kind? = some a ∧ target.kind? = some b ∧ isAllowed a b = true := by
  unfold joins at h
  split at h
  · rename_i a b ha hb
    exact ⟨a, b, ha, hb, h⟩
  · exact absurd h (by simp)

end FlowTyping

/-! ## Orderly diagrams -/

/-- What drawing relies on: an id names one element and a cell holds one, elements stand on the
sides of their kinds, and flows between elements are allowed. -/
structure Diagram.IsOrderly (d : Diagram) : Prop where
  nodup_id : (d.elements.map Element.id).Nodup
  eq_of_cell : ∀ a ∈ d.elements, ∀ b ∈ d.elements, a.cell = b.cell → a = b
  kind : ∀ e ∈ d.elements, ∃ kind, e.kind? = some kind ∧ (e.row : Int).sign = kind.side
  allowed : ∀ f ∈ d.flows, ∀ source target, d.element? f.source = some source →
    d.element? f.target = some target → FlowTyping.violation? f source target = none

theorem Diagram.orderly_of_rules {d : Diagram} (hid : (d.elements.map Element.id).Nodup)
    (hrules : ∀ r : Rule, r.violations d = []) : d.IsOrderly := by
  have hpositioning : Positioning.violations d = [] := hrules .positioning
  have hflows : FlowTyping.violations d = [] := hrules .flowTypes
  rw [Positioning.violations, List.append_eq_nil_iff, List.append_eq_nil_iff] at hpositioning
  obtain ⟨⟨hrows, hcells⟩, -⟩ := hpositioning
  refine ⟨hid, ?_, ?_, ?_⟩
  · intro a ha b hb hcell
    exact Positioning.eq_of_no_sharedCells hcells ha hb hcell
  · intro e he
    exact Positioning.kind_of_no_rowViolations hrows he
  · intro f hf source target hsource htarget
    have hnone := List.filterMap_eq_nil_iff.1 hflows f hf
    rw [FlowTyping.flowViolation?, d.get?_byId, d.get?_byId, hsource, htarget] at hnone
    exact hnone

end EventModel
