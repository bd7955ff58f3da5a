import EventModel.Proofs.Diagram.Indexing
import EventModel.Proofs.Rule.Grouping
import EventModel.Rule.RuleSet

/-!
# What the rules report

For each rule it is said once which violations it finds, and of what (`mem_rowViolations`,
`mem_sharedCells`, `mem_branchGaps`, `Composition.mem_violations`).  It follows that a rule reports
warnings of its own category only (`Rule.category_of_mem_diagnostics`), and only on what the
diagram declares (`Rule.isOn_of_mem_violations`).
-/

namespace EventModel

theorem Diagram.mem_of_element? {d : Diagram} {id : ElementId} {e : Element}
    (h : d.element? id = some e) : e ∈ d.elements ∧ e.id = id := by
  rw [element?] at h
  exact ⟨List.mem_of_find?_eq_some h, by simpa using List.find?_some h⟩

/-! ## Positioning -/

namespace Positioning

theorem mem_rowViolations {elements : List Element} {v : Violation} :
    v ∈ rowViolations elements ↔
      (∃ e ∈ elements, e.kind? = none ∧ v = .unrecognizedKind e) ∨
      ∃ e ∈ elements, ∃ kind, e.kind? = some kind ∧
        (kind.band (externalEventLimit elements)).contains e.row = false ∧
        v = .outsideBand e kind (kind.band (externalEventLimit elements)) := by
  rw [rowViolations, List.mem_filterMap]
  constructor
  · rintro ⟨e, he, hv⟩
    cases hkind : e.kind? with
    | none =>
        simp only [rowViolation?, hkind, Option.some.injEq] at hv
        exact Or.inl ⟨e, he, hkind, hv.symm⟩
    | some kind =>
        simp only [rowViolation?, hkind] at hv
        split at hv
        · exact absurd hv (by simp)
        · rename_i hband
          rw [Bool.not_eq_true] at hband
          exact Or.inr ⟨e, he, kind, hkind, hband, (Option.some.inj hv).symm⟩
  · rintro (⟨e, he, hkind, rfl⟩ | ⟨e, he, kind, hkind, hband, rfl⟩)
    · exact ⟨e, he, by simp only [rowViolation?, hkind]⟩
    · exact ⟨e, he, by simp only [rowViolation?, hkind, hband, Bool.false_eq_true, if_false]⟩

theorem mem_sharedCells {elements : List Element} {v : Violation} :
    v ∈ sharedCells elements ↔
      ∃ e ∈ elements, 1 < (occupants elements e.cell).length ∧
        v = .sharedCell e (occupants elements e.cell) := by
  rw [sharedCells_eq, List.mem_flatMap]
  constructor
  · rintro ⟨cell, -, hv⟩
    rw [sharedCellViolations] at hv
    split at hv
    · rename_i hshared
      obtain ⟨e, he, rfl⟩ := List.mem_map.1 hv
      obtain ⟨hmem, rfl⟩ := mem_occupants.1 he
      exact ⟨e, hmem, hshared, rfl⟩
    · exact absurd hv (by simp)
  · rintro ⟨e, he, hshared, rfl⟩
    refine ⟨e.cell, ?_, ?_⟩
    · rw [occupiedCells, List.mem_eraseDups]
      exact List.mem_map_of_mem he
    · rw [sharedCellViolations, if_pos hshared]
      exact List.mem_map_of_mem (mem_occupants.2 ⟨he, rfl⟩)

theorem mem_branchGaps {d : Diagram} {v : Violation} :
    v ∈ branchGaps d ↔
      ∃ command ∈ d.elements, command.isKind .command = true ∧
        areConsecutive (branch d command) = false ∧
        ∃ event ∈ branch d command, v = .branchGap event command := by
  rw [branchGaps, List.mem_flatMap]
  constructor
  · rintro ⟨command, hcommand, hv⟩
    rw [List.mem_filter] at hcommand
    simp only [branchViolations] at hv
    split at hv
    · exact absurd hv (by simp)
    · rename_i hgap
      rw [Bool.not_eq_true] at hgap
      obtain ⟨event, hevent, rfl⟩ := List.mem_map.1 hv
      exact ⟨command, hcommand.1, hcommand.2, hgap, event, hevent, rfl⟩
  · rintro ⟨command, hcommand, hkind, hgap, event, hevent, rfl⟩
    refine ⟨command, List.mem_filter.2 ⟨hcommand, hkind⟩, ?_⟩
    simp only [branchViolations, hgap, Bool.false_eq_true, if_false]
    exact List.mem_map_of_mem hevent

theorem of_branchEvent? {d : Diagram} {command event : Element} {f : Flow}
    (h : branchEvent? d command f = some event) :
    d.element? event.id = some event ∧ event.isKind .event = true := by
  rw [branchEvent?, Diagram.get?_byId] at h
  split at h
  · rw [Option.filter_eq_some_iff] at h
    rw [(Diagram.mem_of_element? h.1).2]
    exact h
  · exact absurd h (by simp)

theorem pairwise_id_branch (d : Diagram) (command : Element) :
    (branch d command).Pairwise fun a b => a.id ≠ b.id :=
  pairwise_eraseDupsBy_key Element.id _

/-- However many flows lead to an event, it is in the branch; no other element has its id. -/
theorem mem_branch {d : Diagram} {command event : Element} :
    event ∈ branch d command ↔ ∃ f ∈ d.flows, branchEvent? d command f = some event := by
  rw [← List.mem_filterMap]
  constructor
  · exact fun h => (eraseDupsBy_sublist _ _).subset h
  · intro h
    have hid : event.id ∈ (branch d command).map Element.id :=
      mem_map_eraseDupsBy_key.2 (List.mem_map_of_mem h)
    obtain ⟨other, hother, hsame⟩ := List.mem_map.1 hid
    obtain ⟨f, -, hf⟩ := List.mem_filterMap.1 h
    obtain ⟨f', -, hf'⟩ := List.mem_filterMap.1 ((eraseDupsBy_sublist _ _).subset hother)
    have hfound := (of_branchEvent? hf').1
    rw [hsame, (of_branchEvent? hf).1] at hfound
    rw [Option.some.inj hfound]
    exact hother

/-- A branch is made up of events of the diagram. -/
theorem of_mem_branch {d : Diagram} {command event : Element} (h : event ∈ branch d command) :
    event ∈ d.elements ∧ event.isKind .event = true := by
  obtain ⟨f, -, hf⟩ := mem_branch.1 h
  exact ⟨(Diagram.mem_of_element? (of_branchEvent? hf).1).1, (of_branchEvent? hf).2⟩

end Positioning

/-! ## Flows -/

/-- Whether a flow that is reported under the code must not be drawn at all. -/
def Code.forbidsDrawing : Code → Bool
  | .screenToAutomation | .invalidBackFlow => true
  | _ => false

namespace FlowTyping

theorem of_rejection? {f : Flow} {source target : Element} {v : Violation}
    (h : rejection? f source target = some v) :
    v = .screenToAutomation f source target ∨ v = .backFlow f source target := by
  unfold rejection? at h
  split at h
  · split at h
    · exact Or.inl (Option.some.inj h).symm
    · exact absurd h (by simp)
  · split at h
    · exact absurd h (by simp)
    · exact Or.inr (Option.some.inj h).symm

theorem of_violation? {f : Flow} {source target : Element} {v : Violation}
    (h : violation? f source target = some v) :
    v = .screenToAutomation f source target ∨ v = .backFlow f source target ∨
      v = .disallowedFlow f source target := by
  unfold violation? at h
  split at h
  · rename_i w hrejection
    obtain rfl := Option.some.inj h
    rcases of_rejection? hrejection with hv | hv
    · exact Or.inl hv
    · exact Or.inr (Or.inl hv)
  · split at h
    · exact absurd h (by simp)
    · exact Or.inr (Or.inr (Option.some.inj h).symm)

/-- A flow that must not be drawn is one of the flows that are not allowed. -/
theorem rejection?_eq_filter (f : Flow) (source target : Element) :
    rejection? f source target =
      (violation? f source target).filter (·.code.forbidsDrawing) := by
  rw [violation?]
  cases hrejection : rejection? f source target with
  | some v => rcases of_rejection? hrejection with rfl | rfl <;> rfl
  | none =>
      simp only
      split <;> rfl

theorem exists_of_flowViolation? {d : Diagram} {f : Flow} {v : Violation}
    (h : flowViolation? d f = some v) :
    ∃ source target, d.element? f.source = some source ∧ d.element? f.target = some target ∧
      violation? f source target = some v := by
  unfold flowViolation? at h
  rw [d.get?_byId, d.get?_byId] at h
  split at h
  · rename_i source target hsource htarget
    exact ⟨source, target, hsource, htarget, h⟩
  · exact absurd h (by simp)

end FlowTyping

/-! ## Slices -/

theorem Composition.mem_violations {d : Diagram} {v : Violation} :
    v ∈ violations d ↔
      ∃ s ∈ d.slices, ∃ defect, defect? s.kind (kindsIn d.elements s) = some defect ∧
        v = .sliceDefect s defect := by
  rw [violations, List.mem_filterMap]
  constructor
  · rintro ⟨s, hs, hv⟩
    obtain ⟨defect, hdefect, rfl⟩ := Option.map_eq_some_iff.1 hv
    exact ⟨s, hs, defect, hdefect, rfl⟩
  · rintro ⟨s, hs, defect, hdefect, rfl⟩
    exact ⟨s, hs, Option.map_eq_some_iff.2 ⟨defect, hdefect, rfl⟩⟩

/-! ## All rules -/

/-- The category of whatever a rule reports. -/
def Rule.category : Rule → Category
  | positioning => .positioning
  | flowTypes => .flowType
  | slices => .composition

/-- Whether all that a violation names is declared in a diagram, and is of the kind that it is
taken for. -/
def Violation.IsOn (d : Diagram) : Violation → Prop
  | unrecognizedKind e => e ∈ d.elements ∧ e.kind? = none
  | outsideBand e kind _ => e ∈ d.elements ∧ e.kind? = some kind
  | sharedCell e group => e ∈ d.elements ∧ ∀ other ∈ group, other ∈ d.elements
  | branchGap event command =>
    event ∈ d.elements ∧ command ∈ d.elements ∧ event.isKind .event = true ∧
      command.isKind .command = true
  | screenToAutomation f .. | backFlow f .. | disallowedFlow f .. => f ∈ d.flows
  | sliceDefect s _ => s ∈ d.slices

theorem Violation.category_diagnostic (v : Violation) :
    v.diagnostic.category = v.code.category := rfl

namespace Rule

theorem isOn_of_mem_violations {r : Rule} {d : Diagram} {v : Violation}
    (h : v ∈ r.violations d) : v.IsOn d ∧ v.code.category = r.category := by
  cases r with
  | positioning =>
      rw [violations, Positioning.violations, List.mem_append, List.mem_append] at h
      rcases h with (h | h) | h
      · rcases Positioning.mem_rowViolations.1 h with
          ⟨e, he, hkind, rfl⟩ | ⟨e, he, _, hkind, -, rfl⟩
        · exact ⟨⟨he, hkind⟩, rfl⟩
        · exact ⟨⟨he, hkind⟩, rfl⟩
      · obtain ⟨e, he, -, rfl⟩ := Positioning.mem_sharedCells.1 h
        exact ⟨⟨he, fun other hother => (Positioning.mem_occupants.1 hother).1⟩, rfl⟩
      · obtain ⟨command, hcommand, hkind, -, event, hevent, rfl⟩ :=
          Positioning.mem_branchGaps.1 h
        have hmem := Positioning.of_mem_branch hevent
        exact ⟨⟨hmem.1, hcommand, hmem.2, hkind⟩, rfl⟩
  | flowTypes =>
      obtain ⟨f, hf, hv⟩ := List.mem_filterMap.1 h
      obtain ⟨source, target, -, -, hviolation⟩ := FlowTyping.exists_of_flowViolation? hv
      rcases FlowTyping.of_violation? hviolation with rfl | rfl | rfl <;> exact ⟨hf, rfl⟩
  | slices =>
      obtain ⟨s, hs, defect, -, rfl⟩ := Composition.mem_violations.1 h
      exact ⟨hs, rfl⟩

theorem category_of_mem_diagnostics {r : Rule} {diagram : Diagram} {d : Diagnostic}
    (h : d ∈ r.diagnostics diagram) : d.category = r.category ∧ d.isError = false := by
  obtain ⟨v, hv, rfl⟩ := List.mem_map.1 h
  exact ⟨(isOn_of_mem_violations hv).2, v.diagnostic_isError⟩

end Rule

theorem RuleSet.mem_diagnostics_iff {rules : RuleSet} {diagram : Diagram} {d : Diagnostic} :
    d ∈ rules.diagnostics diagram ↔ ∃ r, rules.enables r = true ∧ d ∈ r.diagnostics diagram := by
  have hall (r : Rule) : r ∈ Rule.all := by cases r <;> decide
  rw [diagnostics, List.mem_flatMap]
  simp [List.mem_filter, hall]

end EventModel
