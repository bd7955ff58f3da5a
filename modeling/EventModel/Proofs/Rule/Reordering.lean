import EventModel.Proofs.Connection.Agreement
import EventModel.Proofs.Document.Reading
import EventModel.Proofs.Rule.Branching
import Mathlib.Data.List.Perm.Basic

/-!
# The order of declarations

Elements, flows and slices of a diagram may be declared in any order.  With ids that are not used
twice, look-up finds the same element in every order (`Diagram.IsReordering.element?_eq`), and from
this it follows that each rule reports on the same lines and that resolving draws the same
connections (`reports_of_isReordering`).
-/

namespace EventModel

/-- Two diagrams declare the same, each in some order, and no id is used twice. -/
structure Diagram.IsReordering (d d' : Diagram) : Prop where
  nodup_id : (d.elements.map Element.id).Nodup
  elements : d.elements.Perm d'.elements
  flows : d.flows.Perm d'.flows
  slices : d.slices.Perm d'.slices

/-! ## Elements in another order -/

section Elements

variable {elements elements' : List Element} (h : elements.Perm elements')

include h

theorem externalEventLimit_eq_of_perm :
    externalEventLimit elements = externalEventLimit elements' := by
  have hrows := (h.filter (·.isKind .event)).map Element.row
  have hlowest : lowestEventRow? elements = lowestEventRow? elements' := by
    apply Option.ext
    intro lowest
    rw [lowestEventRow?, lowestEventRow?, List.min?_eq_some_iff, List.min?_eq_some_iff,
      hrows.mem_iff]
    simp only [hrows.mem_iff]
  rw [externalEventLimit, externalEventLimit, hlowest]

namespace Positioning

theorem rowViolations_perm : (rowViolations elements).Perm (rowViolations elements') := by
  rw [rowViolations, rowViolations, externalEventLimit_eq_of_perm h]
  exact h.filterMap _

theorem occupants_perm (cell : Cell) :
    (occupants elements cell).Perm (occupants elements' cell) :=
  h.filter _

theorem occupiedCells_perm : (occupiedCells elements).Perm (occupiedCells elements') := by
  have hnodup (es : List Element) : (occupiedCells es).Nodup := pairwise_eraseDupsBy_key id _
  rw [List.perm_ext_iff_of_nodup (hnodup _) (hnodup _)]
  intro cell
  rw [occupiedCells, occupiedCells, List.mem_eraseDups, List.mem_eraseDups]
  exact (h.map _).mem_iff

/-- What each element of a shared cell is reported for names the others in the order in which they
are declared; the code and the line are the same in any order. -/
theorem sharedCells_perm :
    ((sharedCells elements).map fun v => (v.code, v.line)).Perm
      ((sharedCells elements').map fun v => (v.code, v.line)) := by
  have hgroup (group : List Element) :
      (sharedCellViolations group).map (fun v => (v.code, v.line)) =
        if 1 < group.length then group.map fun e => (.sharedPosition, e.origin) else [] := by
    rw [sharedCellViolations]
    split
    · rw [List.map_map]
      rfl
    · rfl
  rw [sharedCells_eq, sharedCells_eq, List.map_flatMap, List.map_flatMap]
  refine (occupiedCells_perm h).flatMap fun cell _ => ?_
  rw [hgroup, hgroup, (occupants_perm h cell).length_eq]
  split
  · exact (occupants_perm h cell).map _
  · exact List.Perm.refl _

end Positioning

theorem Composition.sliceViolation?_eq_of_perm :
    sliceViolation? elements = sliceViolation? elements' := by
  funext s
  have hkinds : (kindsIn elements s).Perm (kindsIn elements' s) := (h.filter _).filterMap _
  have hmissing : missingRoles s.kind (kindsIn elements s) =
      missingRoles s.kind (kindsIn elements' s) := by
    rw [missingRoles, missingRoles]
    congr 1
    funext role
    rw [hkinds.any_eq]
  rw [sliceViolation?, sliceViolation?, defect?, defect?, hkinds.contains_eq, hmissing]

end Elements

/-! ## Diagrams in another order -/

namespace Diagram.IsReordering

variable {d d' : Diagram} (h : d.IsReordering d')

include h

theorem element?_eq : d.element? = d'.element? := by
  funext id
  apply Option.ext
  intro e
  have hkey' : ∀ a ∈ d'.elements, ∀ b ∈ d'.elements, a.id = b.id → a = b := by
    intro a ha b hb
    exact List.inj_on_of_nodup_map h.nodup_id (h.elements.mem_iff.2 ha) (h.elements.mem_iff.2 hb)
  have hkey : ∀ a ∈ d.elements, ∀ b ∈ d.elements, a.id = b.id → a = b :=
    fun a ha b hb => List.inj_on_of_nodup_map h.nodup_id ha hb
  rw [element?, element?, find?_key_eq_some_iff hkey, find?_key_eq_some_iff hkey',
    h.elements.mem_iff]

theorem outcome_eq : d.outcome = d'.outcome := by
  funext f
  rw [outcome, outcome, h.element?_eq]

theorem connections_perm : d.connections.Perm d'.connections := by
  rw [connections_eq, connections_eq, outcomes, outcomes, h.outcome_eq]
  exact (h.flows.map _).filterMap _

theorem rejections_perm : d.rejections.Perm d'.rejections := by
  rw [rejections_eq, rejections_eq, outcomes, outcomes, h.outcome_eq]
  exact ((h.flows.map _).filterMap _).map _

theorem flowTypes_perm :
    (Rule.flowTypes.violations d).Perm (Rule.flowTypes.violations d') := by
  have hflow : FlowTyping.flowViolation? d = FlowTyping.flowViolation? d' := by
    funext f
    simp only [FlowTyping.flowViolation?, Diagram.get?_byId, h.element?_eq]
  rw [Rule.violations, Rule.violations, FlowTyping.violations, FlowTyping.violations, hflow]
  exact h.flows.filterMap _

theorem slices_perm : (Rule.slices.violations d).Perm (Rule.slices.violations d') := by
  rw [Rule.violations, Rule.violations, Composition.violations, Composition.violations,
    Composition.sliceViolation?_eq_of_perm h.elements]
  exact h.slices.filterMap _

theorem branch_perm (command : Element) :
    (Positioning.branch d command).Perm (Positioning.branch d' command) := by
  have hnodup (d : Diagram) : (Positioning.branch d command).Nodup :=
    (Positioning.pairwise_id_branch d command).imp fun hid heq => hid (by rw [heq])
  rw [List.perm_ext_iff_of_nodup (hnodup d) (hnodup d')]
  intro event
  simp only [Positioning.mem_branch, Positioning.branchEvent?, Diagram.get?_byId, h.element?_eq,
    h.flows.mem_iff]

theorem branchGaps_perm : (Positioning.branchGaps d).Perm (Positioning.branchGaps d') := by
  refine (h.elements.filter _).flatMap fun command _ => ?_
  have hbranch := h.branch_perm command
  simp only [Positioning.branchViolations, Positioning.areConsecutive_eq_of_perm hbranch]
  split
  · exact List.Perm.refl _
  · exact hbranch.map _

theorem positioning_perm :
    ((Rule.positioning.violations d).map fun v => (v.code, v.line)).Perm
      ((Rule.positioning.violations d').map fun v => (v.code, v.line)) := by
  rw [Rule.violations, Rule.violations, Positioning.violations, Positioning.violations]
  simp only [List.map_append]
  exact (((Positioning.rowViolations_perm h.elements).map _).append
    (Positioning.sharedCells_perm h.elements)).append (h.branchGaps_perm.map _)

theorem subjects_perm (r : Rule) :
    ((r.violations d).map fun v => (v.code, v.line)).Perm
      ((r.violations d').map fun v => (v.code, v.line)) := by
  cases r with
  | positioning => exact h.positioning_perm
  | flowTypes => exact h.flowTypes_perm.map _
  | slices => exact h.slices_perm.map _

end Diagram.IsReordering

/-! ## Documents -/

namespace Document

/-- Some statement of the document declares an element with the id, wherever it stands. -/
def Declares (source : String) (id : ElementId) : Prop :=
  ∃ s ∈ Statement.scan source, ∃ e, s.element? = some e ∧ e.id = id

theorem declares_iff {source : String} {id : ElementId} :
    Declares source id ↔ id ∈ (build source).diagram.elements.map Element.id := by
  have hids : (build source).diagram.elements.map Element.id =
      (acceptedElements (Statement.scan source)).map Element.id := by
    rw [← elements_build, List.map_map]
    rfl
  rw [hids, acceptedElements, mem_map_eraseDupsBy_key, List.mem_map]
  simp only [Declares, List.mem_filterMap]
  constructor
  · rintro ⟨s, hs, e, he, hid⟩
    exact ⟨e, ⟨s, hs, he⟩, hid⟩
  · rintro ⟨e, ⟨s, hs, he⟩, hid⟩
    exact ⟨s, hs, e, he, hid⟩

theorem outcome_eq_dropped_iff (source : String) (f : Flow) :
    (build source).diagram.outcome f = .dropped f ↔
      ¬(Declares source f.source ∧ Declares source f.target) := by
  rw [declares_iff, declares_iff]
  by_cases hends : (build source).diagram.HasEnds f
  · obtain ⟨s, t, hs, ht⟩ := Diagram.hasEnds_iff.1 hends
    rw [(Diagram.outcome_of_ends hs ht).2]
    refine iff_of_false ?_ (not_not.2 hends)
    cases (FlowTyping.violation? f s t).filter (·.code.forbidsDrawing) <;> simp
  · exact iff_of_true (Diagram.outcome_of_not_hasEnds hends).1 hends

end Document

/-- **The order of declarations changes no verdict.**  When elements, flows and slices are put in
another order, each rule reports the same codes on the same lines; what is reported on flows and on
slices and in resolving is the same in every word, and the same connections are drawn.  In a
document a flow may stand before the elements that it joins. -/
theorem reports_of_isReordering :
    (∀ d d' : Diagram, d.IsReordering d' →
      (∀ r : Rule, ((r.diagnostics d).map fun x => (x.code, x.line)).Perm
        ((r.diagnostics d').map fun x => (x.code, x.line))) ∧
      (Rule.flowTypes.diagnostics d).Perm (Rule.flowTypes.diagnostics d') ∧
      (Rule.slices.diagnostics d).Perm (Rule.slices.diagnostics d') ∧
      d.rejections.Perm d'.rejections ∧
      d.connections.Perm d'.connections ∧
      d.outcome = d'.outcome) ∧
    ∀ (source : String) (f : Flow),
      (Document.build source).diagram.outcome f = .dropped f ↔
        ¬(Document.Declares source f.source ∧ Document.Declares source f.target) := by
  refine ⟨fun d d' h => ⟨fun r => ?_, h.flowTypes_perm.map _, h.slices_perm.map _,
    h.rejections_perm, h.connections_perm, h.outcome_eq⟩, Document.outcome_eq_dropped_iff⟩
  have hsubjects := h.subjects_perm r
  rw [Rule.diagnostics, Rule.diagnostics, List.map_map, List.map_map]
  exact hsubjects

/-- A diagram with flows from lines before those of their elements, a shared cell and a branch
with a gap. -/
def scattered : Diagram :=
  let line (n : Nat) : Line := ⟨n, "", ⟨n, n, Nat.le_refl n⟩⟩
  { elements :=
      [{ id := 3, typeName := "Event", name := "C", cell := ⟨-1, 2⟩, origin := line 2 },
       { id := 2, typeName := "Event", name := "B", cell := ⟨-1, 0⟩, origin := line 4 },
       { id := 4, typeName := "Gadget", name := "D", cell := ⟨-1, 0⟩, origin := line 5 },
       { id := 1, typeName := "Command", name := "A", cell := ⟨0, 0⟩, origin := line 7 }]
    flows := [⟨1, 3, .forward, line 1⟩, ⟨1, 2, .forward, line 3⟩]
    slices := [⟨.viewState, "S", .ofList [0], line 6⟩, ⟨.stateChange, "T", .ofList [0], line 8⟩] }

/-- Everything declared in reverse. -/
def Diagram.reverse (d : Diagram) : Diagram :=
  { d with
    elements := d.elements.reverse
    flows := d.flows.reverse
    slices := d.slices.reverse }

theorem Diagram.isReordering_reverse {d : Diagram} (h : (d.elements.map Element.id).Nodup) :
    d.IsReordering d.reverse :=
  ⟨h, (List.reverse_perm _).symm, (List.reverse_perm _).symm, (List.reverse_perm _).symm⟩

theorem reports_of_isReordering_scattered :
    scattered.IsReordering scattered.reverse ∧
      (Positioning.sharedCells scattered.elements ≠
          Positioning.sharedCells scattered.reverse.elements ∧
        scattered.connections ≠ scattered.reverse.connections) ∧
      (∀ r : Rule, ((r.diagnostics scattered).map fun x => (x.code, x.line)).Perm
        ((r.diagnostics scattered.reverse).map fun x => (x.code, x.line))) ∧
      scattered.connections.Perm scattered.reverse.connections := by
  have hreverse : scattered.IsReordering scattered.reverse :=
    Diagram.isReordering_reverse (by decide +kernel)
  obtain ⟨hrules, -, -, -, hconnections, -⟩ :=
    reports_of_isReordering.1 scattered scattered.reverse hreverse
  exact ⟨hreverse, by decide +kernel, hrules, hconnections⟩

end EventModel
