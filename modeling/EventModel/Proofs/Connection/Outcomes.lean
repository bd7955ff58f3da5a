import EventModel.Proofs.Connection.Agreement
import Mathlib.Data.List.Nodup

/-!
# What becomes of flows

Resolving connects, rejects or drops each flow, and which of the three it does can be said of the
elements that the flow names: of an id that is used twice, the first element has it.  So the
connections, the reports and the dropped flows are those of three parts of the flows, each in its
order (`outcomes_partitioned`).  What can be seen in a cell is the first element there, too
(`elementAt?_eq_some_iff`).
-/

namespace EventModel

/-- The flow leads straight from a screen to an automation, or back but not from an event to a read
model. -/
def Flow.IsForbidden (f : Flow) (source target : Element) : Prop :=
  match f.direction with
  | .forward => source.kind? = some .screen ∧ target.kind? = some .automation
  | .backward => ¬(source.kind? = some .event ∧ target.kind? = some .readModel)

/-- A report on the line of a flow, with the code that belongs to the direction of the flow. -/
def Flow.ReportedAs (f : Flow) (x : Diagnostic) : Prop :=
  x.line = f.origin ∧
    x.code = if f.direction = .forward then .screenToAutomation else .invalidBackFlow

theorem FlowTyping.rejection?_of_isForbidden {f : Flow} {source target : Element}
    (h : f.IsForbidden source target) :
    ∃ v, rejection? f source target = some v ∧ f.ReportedAs v.diagnostic := by
  cases hf : f.direction with
  | forward =>
      simp only [Flow.IsForbidden, hf] at h
      refine ⟨.screenToAutomation f source target, ?_, rfl, (if_pos hf).symm⟩
      simp [rejection?, hf, Element.isKind, h]
  | backward =>
      simp only [Flow.IsForbidden, hf] at h
      refine ⟨.backFlow f source target, ?_, rfl, (if_neg (by simp [hf])).symm⟩
      simpa [rejection?, hf, Element.isKind] using h

theorem FlowTyping.rejection?_of_not_isForbidden {f : Flow} {source target : Element}
    (h : ¬f.IsForbidden source target) : rejection? f source target = none := by
  cases hf : f.direction with
  | forward =>
      simp only [Flow.IsForbidden, hf] at h
      simpa [rejection?, hf, Element.isKind] using h
  | backward =>
      simp only [Flow.IsForbidden, hf, not_not] at h
      simp [rejection?, hf, Element.isKind, h]

namespace Diagram

/-! ## First declarations -/

/-- The element is the first that is declared with an id. -/
def DeclaresFirst (d : Diagram) (id : ElementId) (e : Element) : Prop :=
  IsFirst d.elements (fun e => e.id = id) e

theorem element?_eq_some_iff {d : Diagram} {id : ElementId} {e : Element} :
    d.element? id = some e ↔ d.DeclaresFirst id e := by
  rw [element?, find?_eq_some_iff_isFirst]
  simp only [beq_iff_eq, DeclaresFirst]

theorem elementAt?_eq_some_iff {d : Diagram} {cell : Cell} {e : Element} :
    d.elementAt? cell = some e ↔ IsFirst d.elements (fun e => e.cell = cell) e := by
  rw [elementAt?_eq, find?_eq_some_iff_isFirst]
  simp only [beq_iff_eq]

theorem elementAt?_eq_none_iff {d : Diagram} {cell : Cell} :
    d.elementAt? cell = none ↔ ∀ e ∈ d.elements, e.cell ≠ cell := by
  rw [elementAt?_eq, List.find?_eq_none]
  simp only [beq_iff_eq]

theorem nodup_cell_visibleElements (d : Diagram) :
    (d.visibleElements.map Element.cell).Nodup :=
  List.pairwise_map.2 d.resolve.positions.distinct

theorem isFirst_of_mem_visibleElements {d : Diagram} {e : Element} (h : e ∈ d.visibleElements) :
    IsFirst d.elements (fun other => other.cell = e.cell) e := by
  have hinjective : ∀ a ∈ d.visibleElements, ∀ b ∈ d.visibleElements, a.cell = b.cell → a = b :=
    fun a ha b hb => List.inj_on_of_nodup_map d.nodup_cell_visibleElements ha hb
  exact elementAt?_eq_some_iff.1 ((find?_key_eq_some_iff hinjective).2 ⟨h, rfl⟩)

/-- Of each occupied cell one element can be seen, the first; cells come in the order in which they
are first occupied. -/
structure ShowsFirst (d : Diagram) : Prop where
  nodup : (d.visibleElements.map Element.cell).Nodup
  occupied : ∀ cell, cell ∈ d.visibleElements.map Element.cell ↔ cell ∈ d.elements.map Element.cell
  ordered : (d.visibleElements.map Element.cell).Pairwise fun a b =>
    (d.elements.map Element.cell).idxOf a < (d.elements.map Element.cell).idxOf b
  first : ∀ e ∈ d.visibleElements, IsFirst d.elements (fun other => other.cell = e.cell) e
  found : ∀ cell e,
    d.elementAt? cell = some e ↔ IsFirst d.elements (fun other => other.cell = cell) e
  absent : ∀ cell, d.elementAt? cell = none ↔ ∀ e ∈ d.elements, e.cell ≠ cell

theorem showsFirst (d : Diagram) : d.ShowsFirst where
  nodup := d.nodup_cell_visibleElements
  occupied _ := by
    rw [visibleElements_eq]
    exact mem_map_eraseDupsBy_key
  ordered := by
    rw [visibleElements_eq]
    exact pairwise_idxOf_eraseDupsBy_key Element.cell d.elements
  first _ := isFirst_of_mem_visibleElements
  found _ _ := elementAt?_eq_some_iff
  absent _ := elementAt?_eq_none_iff

/-! ## Three outcomes -/

/-- The ends of a flow, each the first element that is declared with the id. -/
def Joins (d : Diagram) (f : Flow) (source target : Element) : Prop :=
  d.DeclaresFirst f.source source ∧ d.DeclaresFirst f.target target

/-- The flow names an id that no element has. -/
def Drops (d : Diagram) (f : Flow) : Prop :=
  (∀ e ∈ d.elements, e.id ≠ f.source) ∨ ∀ e ∈ d.elements, e.id ≠ f.target

/-- The flow must not be drawn between its ends. -/
def Rejects (d : Diagram) (f : Flow) : Prop :=
  ∃ source target, d.Joins f source target ∧ f.IsForbidden source target

/-- The flow can be drawn between its ends. -/
def Connects (d : Diagram) (f : Flow) : Prop :=
  ∃ source target, d.Joins f source target ∧ ¬f.IsForbidden source target

theorem joins_iff {d : Diagram} {f : Flow} {source target : Element} :
    d.Joins f source target ↔
      d.element? f.source = some source ∧ d.element? f.target = some target := by
  rw [Joins, element?_eq_some_iff, element?_eq_some_iff]

theorem drops_iff {d : Diagram} {f : Flow} : d.Drops f ↔ ¬d.HasEnds f := by
  rw [HasEnds, Decidable.not_and_iff_not_or_not, Drops, List.mem_map, List.mem_map]
  simp only [not_exists, not_and, ne_eq]

theorem outcome_of_drops {d : Diagram} {f : Flow} (h : d.Drops f) : d.outcome f = .dropped f :=
  (outcome_of_not_hasEnds (drops_iff.1 h)).1

theorem outcome_of_isForbidden {d : Diagram} {f : Flow} {source target : Element}
    (hends : d.Joins f source target) (h : f.IsForbidden source target) :
    ∃ v, d.outcome f = .rejected v ∧ f.ReportedAs v.diagnostic := by
  obtain ⟨v, hv, hreport⟩ := FlowTyping.rejection?_of_isForbidden h
  obtain ⟨hsource, htarget⟩ := joins_iff.1 hends
  refine ⟨v, ?_, hreport⟩
  rw [outcome, hsource, htarget]
  simp only [hv]

theorem outcome_of_not_isForbidden {d : Diagram} {f : Flow} {source target : Element}
    (hends : d.Joins f source target) (h : ¬f.IsForbidden source target) :
    d.outcome f = .connected (f.connection source target) := by
  obtain ⟨hsource, htarget⟩ := joins_iff.1 hends
  rw [outcome, hsource, htarget]
  simp only [FlowTyping.rejection?_of_not_isForbidden h]

/-- What becomes of a flow shows which of the three holds of it. -/
theorem fate_iff (d : Diagram) (f : Flow) :
    (d.Connects f ↔ (d.outcome f).connection?.isSome = true) ∧
      (d.Rejects f ↔ (d.outcome f).rejection?.isSome = true) ∧
      (d.Drops f ↔ (d.outcome f).dropped?.isSome = true) := by
  have hconnects : d.Connects f → ∃ c, d.outcome f = .connected c := by
    rintro ⟨source, target, hends, h⟩
    exact ⟨_, outcome_of_not_isForbidden hends h⟩
  have hrejects : d.Rejects f → ∃ v, d.outcome f = .rejected v := by
    rintro ⟨source, target, hends, h⟩
    obtain ⟨v, hv, -⟩ := outcome_of_isForbidden hends h
    exact ⟨v, hv⟩
  have hdrops : d.Drops f → d.outcome f = .dropped f := outcome_of_drops
  have hone : d.Connects f ∨ d.Rejects f ∨ d.Drops f := by
    by_cases hends : d.HasEnds f
    · obtain ⟨source, target, hboth⟩ := hasEnds_iff.1 hends
      have hjoins := joins_iff.2 hboth
      by_cases h : f.IsForbidden source target
      · exact Or.inr (Or.inl ⟨source, target, hjoins, h⟩)
      · exact Or.inl ⟨source, target, hjoins, h⟩
    · exact Or.inr (Or.inr (drops_iff.2 hends))
  cases houtcome : d.outcome f <;>
    simp_all [FlowOutcome.connection?, FlowOutcome.rejection?, FlowOutcome.dropped?]

instance (d : Diagram) : DecidablePred d.Connects := fun f => decidable_of_iff' _ (d.fate_iff f).1

instance (d : Diagram) : DecidablePred d.Rejects := fun f => decidable_of_iff' _ (d.fate_iff f).2.1

instance (d : Diagram) : DecidablePred d.Drops := fun f => decidable_of_iff' _ (d.fate_iff f).2.2

theorem exactly_one_fate (d : Diagram) (f : Flow) :
    (d.Connects f ∧ ¬d.Rejects f ∧ ¬d.Drops f) ∨ (¬d.Connects f ∧ d.Rejects f ∧ ¬d.Drops f) ∨
      (¬d.Connects f ∧ ¬d.Rejects f ∧ d.Drops f) := by
  obtain ⟨hconnects, hrejects, hdrops⟩ := d.fate_iff f
  rw [hconnects, hrejects, hdrops]
  cases d.outcome f <;> simp [FlowOutcome.connection?, FlowOutcome.rejection?, FlowOutcome.dropped?]

/-! ## Three lists -/

/-- A connection of a flow has the ids and the cells of the elements that are found for the ids of
the flow. -/
def DrawnAs (d : Diagram) (f : Flow) (c : Connection) : Prop :=
  ∃ source target, d.element? f.source = some source ∧ d.element? f.target = some target ∧
    c.source.id = source.id ∧ c.source.cell = source.cell ∧
    c.target.id = target.id ∧ c.target.cell = target.cell

theorem forall₂_drawnAs (d : Diagram) :
    List.Forall₂ d.DrawnAs (d.flows.filter fun f => d.Connects f) d.connections := by
  rw [connections_eq, outcomes, List.filterMap_map]
  refine forall₂_filter_filterMap ?_ ?_
  · intro f _ h
    obtain ⟨source, target, hends, hallowed⟩ := of_decide_eq_true h
    obtain ⟨hsource, htarget⟩ := joins_iff.1 hends
    refine ⟨f.connection source target, ?_, source, target, hsource, htarget, rfl, rfl, rfl, rfl⟩
    rw [Function.comp_apply, outcome_of_not_isForbidden hends hallowed]
    rfl
  · intro f _ h
    have hnone := mt (d.fate_iff f).1.2 (of_decide_eq_false h)
    rwa [Option.not_isSome_iff_eq_none] at hnone

theorem forall₂_reportedAs (d : Diagram) :
    List.Forall₂ Flow.ReportedAs (d.flows.filter fun f => d.Rejects f) d.rejections := by
  rw [rejections_eq, outcomes, List.filterMap_map, List.map_filterMap]
  refine forall₂_filter_filterMap ?_ ?_
  · intro f _ h
    obtain ⟨source, target, hends, hforbidden⟩ := of_decide_eq_true h
    obtain ⟨v, hv, hreport⟩ := outcome_of_isForbidden hends hforbidden
    refine ⟨v.diagnostic, ?_, hreport⟩
    rw [Function.comp_apply, hv]
    rfl
  · intro f _ h
    have hnone := mt (d.fate_iff f).2.1.2 (of_decide_eq_false h)
    rw [Option.not_isSome_iff_eq_none] at hnone
    rw [Function.comp_apply, hnone]
    rfl

theorem droppedFlows_eq_filter (d : Diagram) :
    d.droppedFlows = d.flows.filter fun f => d.Drops f := by
  rw [droppedFlows_eq, outcomes, List.filterMap_map, ← List.filterMap_eq_filter]
  refine List.filterMap_congr fun f _ => ?_
  rw [Function.comp_apply]
  by_cases h : d.Drops f
  · rw [outcome_of_drops h, Option.guard, if_pos (by simp [h])]
    rfl
  · have hnone := mt (d.fate_iff f).2.2.2 h
    rw [Option.not_isSome_iff_eq_none] at hnone
    rw [hnone, Option.guard, if_neg (by simp [h])]

theorem length_outcomes (os : List FlowOutcome) :
    (os.filterMap FlowOutcome.connection?).length + (os.filterMap FlowOutcome.rejection?).length +
      (os.filterMap FlowOutcome.dropped?).length = os.length := by
  induction os with
  | nil => rfl
  | cons o os ih =>
      rw [List.length_cons, ← ih]
      simp only [List.filterMap_cons]
      cases o <;>
        simp only [FlowOutcome.connection?, FlowOutcome.rejection?, FlowOutcome.dropped?,
          List.length_cons] <;>
        omega

/-- **Resolving loses no flow and takes the first declared.**  Each flow is connected, rejected or
dropped: it is dropped if an id of it is not declared, rejected if it must not be drawn between the
elements that are declared first with its ids, and connected otherwise.  The connections, the
reports and the dropped flows are those of these three parts of the flows, in their order.  Of each
occupied cell the first element can be seen. -/
theorem outcomes_partitioned (d : Diagram) :
    (∀ f : Flow,
      (d.Connects f ∧ ¬d.Rejects f ∧ ¬d.Drops f) ∨ (¬d.Connects f ∧ d.Rejects f ∧ ¬d.Drops f) ∨
        (¬d.Connects f ∧ ¬d.Rejects f ∧ d.Drops f)) ∧
      List.Forall₂ d.DrawnAs (d.flows.filter fun f => d.Connects f) d.connections ∧
      List.Forall₂ Flow.ReportedAs (d.flows.filter fun f => d.Rejects f) d.rejections ∧
      d.droppedFlows = (d.flows.filter fun f => d.Drops f) ∧
      d.connections.length + d.rejections.length + d.droppedFlows.length = d.flows.length ∧
      (∀ id e, d.element? id = some e ↔ d.DeclaresFirst id e) ∧ d.ShowsFirst := by
  refine ⟨d.exactly_one_fate, d.forall₂_drawnAs, d.forall₂_reportedAs, d.droppedFlows_eq_filter,
    ?_, fun _ _ => element?_eq_some_iff, d.showsFirst⟩
  have hlength := length_outcomes d.outcomes
  rw [outcomes, List.length_map, ← outcomes] at hlength
  rw [connections_eq, rejections_eq, List.length_map, droppedFlows_eq]
  exact hlength

end Diagram

end EventModel
