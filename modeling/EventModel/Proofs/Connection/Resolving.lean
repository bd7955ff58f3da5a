import EventModel.Connection.Resolution
import EventModel.Proofs.Diagram.Indexing

/-!
# Resolving flow by flow

What becomes of a flow depends on the elements and on no other flow (`Diagram.outcome`).  Resolving
goes through the flows and collects these outcomes as they come (`Resolution.Collects.push`), so in
the end it has the connections, the reports and the dropped flows of all of them, each in their
order (`Diagram.collects_resolve`).
-/

namespace EventModel

/-- What becomes of a flow. -/
inductive FlowOutcome
  | connected (connection : Connection)
  | rejected (reason : Violation)
  | dropped (flow : Flow)
deriving DecidableEq, Repr

namespace FlowOutcome

/-- The connection, if the flow is connected. -/
def connection? : FlowOutcome → Option Connection
  | connected c => some c
  | _ => none

/-- The reason, if the flow is rejected. -/
def rejection? : FlowOutcome → Option Violation
  | rejected v => some v
  | _ => none

/-- The flow, if it is dropped. -/
def dropped? : FlowOutcome → Option Flow
  | dropped f => some f
  | _ => none

end FlowOutcome

namespace Diagram

/-- What becomes of a flow in a diagram. -/
def outcome (d : Diagram) (f : Flow) : FlowOutcome :=
  match d.element? f.source, d.element? f.target with
  | some source, some target =>
    match FlowTyping.rejection? f source target with
    | some reason => .rejected reason
    | none => .connected (f.connection source target)
  | _, _ => .dropped f

/-- What becomes of each flow. -/
def outcomes (d : Diagram) : List FlowOutcome := d.flows.map d.outcome

end Diagram

/-! ## One flow after the other -/

namespace Resolution

/-- The resolution with one more outcome. -/
def push (r : Resolution) : FlowOutcome → Resolution
  | .connected c => { r with connections := r.connections ++ [c] }
  | .rejected v => { r with rejections := r.rejections ++ [v.diagnostic] }
  | .dropped f => { r with dropped := r.dropped ++ [f] }

@[simp] theorem positions_push (r : Resolution) (o : FlowOutcome) :
    (r.push o).positions = r.positions := by
  cases o <;> rfl

/-- The index finds what a search through the elements finds. -/
theorem add_eq_push (d : Diagram) (r : Resolution) (f : Flow) :
    r.add d.byId f = r.push (d.outcome f) := by
  unfold add Diagram.outcome
  rw [d.get?_byId, d.get?_byId]
  cases d.element? f.source with
  | none => rfl
  | some source =>
      cases d.element? f.target with
      | none => rfl
      | some target =>
          simp only
          cases FlowTyping.rejection? f source target <;> rfl

/-- The resolution has collected some outcomes, those of each sort in their order. -/
structure Collects (r : Resolution) (outcomes : List FlowOutcome) : Prop where
  connections : r.connections = outcomes.filterMap FlowOutcome.connection?
  rejections : r.rejections =
    (outcomes.filterMap FlowOutcome.rejection?).map Violation.diagnostic
  dropped : r.dropped = outcomes.filterMap FlowOutcome.dropped?

namespace Collects

variable {r : Resolution} {outcomes : List FlowOutcome}

/-- An outcome goes to one of the three lists, and to no other. -/
theorem push (h : r.Collects outcomes) (o : FlowOutcome) :
    (r.push o).Collects (outcomes ++ [o]) := by
  obtain ⟨hconnections, hrejections, hdropped⟩ := h
  cases o <;> constructor <;>
    simp [Resolution.push, FlowOutcome.connection?, FlowOutcome.rejection?, FlowOutcome.dropped?,
      hconnections, hrejections, hdropped]

theorem foldl (h : r.Collects outcomes) (d : Diagram) (flows : List Flow) :
    (flows.foldl (add d.byId) r).Collects (outcomes ++ flows.map d.outcome) := by
  induction flows generalizing r outcomes with
  | nil => simpa using h
  | cons f flows ih =>
      rw [List.foldl_cons, List.map_cons, List.append_cons, add_eq_push]
      exact ih (h.push (d.outcome f))

end Collects

theorem positions_foldl (d : Diagram) (flows : List Flow) (r : Resolution) :
    (flows.foldl (add d.byId) r).positions = r.positions := by
  induction flows generalizing r with
  | nil => rfl
  | cons f flows ih => rw [List.foldl_cons, ih, add_eq_push, positions_push]

end Resolution

/-! ## All flows -/

namespace Diagram

theorem collects_resolve (d : Diagram) : d.resolve.Collects d.outcomes := by
  have hstart : Resolution.Collects { positions := .ofElements Element.cell d.elements } [] :=
    ⟨rfl, rfl, rfl⟩
  exact hstart.foldl d d.flows

theorem positions_resolve (d : Diagram) :
    d.resolve.positions = .ofElements Element.cell d.elements :=
  Resolution.positions_foldl d d.flows _

theorem connections_eq (d : Diagram) :
    d.connections = d.outcomes.filterMap FlowOutcome.connection? :=
  d.collects_resolve.connections

theorem rejections_eq (d : Diagram) :
    d.rejections = (d.outcomes.filterMap FlowOutcome.rejection?).map Violation.diagnostic :=
  d.collects_resolve.rejections

theorem droppedFlows_eq (d : Diagram) :
    d.droppedFlows = d.outcomes.filterMap FlowOutcome.dropped? :=
  d.collects_resolve.dropped

theorem visibleElements_eq (d : Diagram) :
    d.visibleElements = d.elements.eraseDupsBy fun a b => a.cell == b.cell := by
  rw [visibleElements, d.positions_resolve, Index.elements_ofElements]

theorem elementAt?_eq (d : Diagram) (cell : Cell) :
    d.elementAt? cell = d.elements.find? (·.cell == cell) := by
  rw [elementAt?, d.positions_resolve, Index.get?_ofElements]

end Diagram

end EventModel
