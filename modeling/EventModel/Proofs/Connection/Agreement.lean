import EventModel.Proofs.Connection.Resolving
import EventModel.Proofs.Rule.Violations

/-!
# Resolving agrees with the rule on flows

The rule on flows and resolving go through the flows of a diagram one after the other, each on
its own.  They never disagree, in whatever diagram: resolving rejects exactly the flows that the
rule reports as not to be drawn, in the same words, and connects all others that have two ends
(`resolution_agrees`).
-/

namespace EventModel

namespace Diagram

/-- A diagram with one flow in place of all its flows. -/
def only (d : Diagram) (f : Flow) : Diagram := { d with flows := [f] }

/-- Both ends of the flow are declared. -/
def HasEnds (d : Diagram) (f : Flow) : Prop :=
  f.source ∈ d.elements.map Element.id ∧ f.target ∈ d.elements.map Element.id

instance (d : Diagram) : DecidablePred d.HasEnds := fun f =>
  inferInstanceAs (Decidable (f.source ∈ d.elements.map Element.id ∧
    f.target ∈ d.elements.map Element.id))

theorem isSome_element? {d : Diagram} {id : ElementId} :
    (d.element? id).isSome = true ↔ id ∈ d.elements.map Element.id := by
  rw [element?, List.find?_isSome, List.mem_map]
  simp only [beq_iff_eq]

theorem hasEnds_iff {d : Diagram} {f : Flow} :
    d.HasEnds f ↔ ∃ source target,
      d.element? f.source = some source ∧ d.element? f.target = some target := by
  rw [HasEnds, ← isSome_element?, ← isSome_element?, Option.isSome_iff_exists,
    Option.isSome_iff_exists]
  constructor
  · rintro ⟨⟨source, hsource⟩, target, htarget⟩
    exact ⟨source, target, hsource, htarget⟩
  · rintro ⟨source, target, hsource, htarget⟩
    exact ⟨⟨source, hsource⟩, target, htarget⟩

/-! ## One flow -/

theorem outcome_of_not_hasEnds {d : Diagram} {f : Flow} (h : ¬d.HasEnds f) :
    d.outcome f = .dropped f ∧ FlowTyping.flowViolation? d f = none := by
  rw [hasEnds_iff] at h
  unfold outcome FlowTyping.flowViolation?
  rw [d.get?_byId, d.get?_byId]
  cases hsource : d.element? f.source with
  | none => exact ⟨rfl, rfl⟩
  | some source =>
      cases htarget : d.element? f.target with
      | none => exact ⟨rfl, rfl⟩
      | some target => exact absurd ⟨source, target, hsource, htarget⟩ h

theorem outcome_of_ends {d : Diagram} {f : Flow} {source target : Element}
    (hsource : d.element? f.source = some source) (htarget : d.element? f.target = some target) :
    FlowTyping.flowViolation? d f = FlowTyping.violation? f source target ∧
      d.outcome f = ((FlowTyping.violation? f source target).filter (·.code.forbidsDrawing)).elim
        (.connected (f.connection source target)) .rejected := by
  unfold outcome FlowTyping.flowViolation?
  -- both passes look the ends up alike, and then ask for a rejection first
  rw [d.get?_byId, d.get?_byId, hsource, htarget, ← FlowTyping.rejection?_eq_filter]
  simp only [true_and]
  cases FlowTyping.rejection? f source target <;> rfl

theorem rejection?_outcome (d : Diagram) (f : Flow) :
    (d.outcome f).rejection? =
      (FlowTyping.flowViolation? d f).filter (·.code.forbidsDrawing) := by
  by_cases hends : d.HasEnds f
  · obtain ⟨source, target, hsource, htarget⟩ := hasEnds_iff.1 hends
    obtain ⟨hviolation, houtcome⟩ := outcome_of_ends hsource htarget
    rw [houtcome, hviolation]
    cases (FlowTyping.violation? f source target).filter (·.code.forbidsDrawing) <;> rfl
  · rw [(outcome_of_not_hasEnds hends).1, (outcome_of_not_hasEnds hends).2]
    rfl

theorem isSome_connection?_outcome (d : Diagram) (f : Flow) :
    (d.outcome f).connection?.isSome = true ↔
      d.HasEnds f ∧ ∀ v ∈ FlowTyping.flowViolation? d f, v.code.forbidsDrawing = false := by
  by_cases hends : d.HasEnds f
  · obtain ⟨source, target, hsource, htarget⟩ := hasEnds_iff.1 hends
    obtain ⟨hviolation, houtcome⟩ := outcome_of_ends hsource htarget
    rw [houtcome, hviolation, and_iff_right hends]
    cases FlowTyping.violation? f source target with
    | none => simp [FlowOutcome.connection?]
    | some v =>
        cases hcode : v.code.forbidsDrawing <;>
          simp [FlowOutcome.connection?, Option.filter_some, hcode]
  · rw [(outcome_of_not_hasEnds hends).1]
    simp [FlowOutcome.connection?, hends]

theorem diagnostics_only (d : Diagram) (f : Flow) :
    Rule.flowTypes.diagnostics (d.only f) =
      ((FlowTyping.flowViolation? d f).map Violation.diagnostic).toList := by
  have hsame : FlowTyping.flowViolation? (d.only f) = FlowTyping.flowViolation? d := rfl
  rw [Rule.diagnostics, Rule.violations, FlowTyping.violations, hsame, only]
  cases h : FlowTyping.flowViolation? d f <;> simp [h]

theorem connections_only (d : Diagram) (f : Flow) :
    (d.only f).connections = (d.outcome f).connection?.toList := by
  have hsame : (d.only f).outcome = d.outcome := rfl
  rw [connections_eq, outcomes, hsame, only]
  cases h : (d.outcome f).connection? <;> simp [h]

/-! ## All flows -/

theorem rejections_eq_filter (d : Diagram) :
    d.rejections = (Rule.flowTypes.diagnostics d).filter (·.code.forbidsDrawing) := by
  have hflows : d.outcomes.filterMap FlowOutcome.rejection? =
      (FlowTyping.violations d).filter (·.code.forbidsDrawing) := by
    rw [outcomes, List.filterMap_map, FlowTyping.violations, List.filter_filterMap]
    exact List.filterMap_congr fun f _ => rejection?_outcome d f
  rw [rejections_eq, hflows, Rule.diagnostics, List.filter_map]
  rfl

theorem flatMap_diagnostics_only (d : Diagram) :
    Rule.flowTypes.diagnostics d =
      d.flows.flatMap fun f => Rule.flowTypes.diagnostics (d.only f) := by
  simp only [diagnostics_only]
  rw [Rule.diagnostics, Rule.violations, FlowTyping.violations, List.map_filterMap,
    List.filterMap_eq_flatMap_toList]

theorem flatMap_connections_only (d : Diagram) :
    d.connections = d.flows.flatMap fun f => (d.only f).connections := by
  simp only [connections_only]
  rw [connections_eq, outcomes, List.filterMap_map, List.filterMap_eq_flatMap_toList]
  rfl

theorem exists_connection_iff (d : Diagram) (f : Flow) :
    (∃ c, (d.only f).connections = [c]) ↔
      d.HasEnds f ∧
        ∀ x ∈ Rule.flowTypes.diagnostics (d.only f), x.code.forbidsDrawing = false := by
  have hcode : (∀ x ∈ Rule.flowTypes.diagnostics (d.only f), x.code.forbidsDrawing = false) ↔
      ∀ v ∈ FlowTyping.flowViolation? d f, v.code.forbidsDrawing = false := by
    rw [diagnostics_only]
    cases FlowTyping.flowViolation? d f <;> simp [Violation.diagnostic]
  rw [hcode, ← isSome_connection?_outcome, connections_only]
  cases (d.outcome f).connection? <;> simp

/-- Of a flow with a finding that need not keep it from being drawn, both ends are declared. -/
theorem exists_connection_iff_findings (d : Diagram) (f : Flow) :
    (∃ c, (d.only f).connections = [c]) ↔
      (d.HasEnds f ∧ Rule.flowTypes.diagnostics (d.only f) = []) ∨
        ∃ x, Rule.flowTypes.diagnostics (d.only f) = [x] ∧ x.code = .flowNotAllowed := by
  rw [exists_connection_iff, diagnostics_only]
  cases hviolation : FlowTyping.flowViolation? d f with
  | none => simp
  | some v =>
      obtain ⟨source, target, hsource, htarget, hv⟩ :=
        FlowTyping.exists_of_flowViolation? hviolation
      have hends : d.HasEnds f := hasEnds_iff.2 ⟨source, target, hsource, htarget⟩
      rcases FlowTyping.of_violation? hv with rfl | rfl | rfl <;>
        simp [hends, Violation.diagnostic, Violation.code, Code.forbidsDrawing]

/-- **Resolving agrees with the rule on flows.**  What resolving reports is what the rule reports
on flows that must not be drawn.  Both take the flows one by one, and a flow is connected just
when both its ends are declared and the rule does not report it as one not to be drawn: when it
has nothing to report, or reports no more than that the flow is not allowed. -/
theorem resolution_agrees (d : Diagram) :
    d.rejections = (Rule.flowTypes.diagnostics d).filter (·.code.forbidsDrawing) ∧
      Rule.flowTypes.diagnostics d =
        (d.flows.flatMap fun f => Rule.flowTypes.diagnostics (d.only f)) ∧
      d.connections = (d.flows.flatMap fun f => (d.only f).connections) ∧
      ∀ f : Flow,
        ((∃ c, (d.only f).connections = [c]) ↔
          d.HasEnds f ∧
            ∀ x ∈ Rule.flowTypes.diagnostics (d.only f), x.code.forbidsDrawing = false) ∧
        ((∃ c, (d.only f).connections = [c]) ↔
          (d.HasEnds f ∧ Rule.flowTypes.diagnostics (d.only f) = []) ∨
            ∃ x, Rule.flowTypes.diagnostics (d.only f) = [x] ∧ x.code = .flowNotAllowed) :=
  ⟨rejections_eq_filter d, flatMap_diagnostics_only d, flatMap_connections_only d,
    fun f => ⟨exists_connection_iff d f, exists_connection_iff_findings d f⟩⟩

end Diagram

end EventModel
