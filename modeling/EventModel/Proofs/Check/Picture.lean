import EventModel.Proofs.Check.Verdict
import EventModel.Proofs.Connection.Outcomes
import EventModel.Proofs.Rule.Compliance

/-!
# The picture of an accepted document

In an orderly diagram rows alone say how an edge runs (`connection_isSound`): solid ones go down
to commands and events and up to everything else, and only dashed ones use the sides of a box.  A
document that is accepted under all rules, with no warning let pass, has such a diagram
(`check_draws_soundly`).
-/

namespace EventModel

/-! ## Looking elements up -/

namespace Diagram

namespace IsOrderly

theorem eq_of_id {d : Diagram} (h : d.IsOrderly) {a b : Element} (ha : a ∈ d.elements)
    (hb : b ∈ d.elements) (hid : a.id = b.id) : a = b :=
  List.inj_on_of_nodup_map h.nodup_id ha hb hid

theorem elementAt?_cell {d : Diagram} (h : d.IsOrderly) {e : Element} (he : e ∈ d.elements) :
    d.elementAt? e.cell = some e := by
  rw [elementAt?_eq]
  exact (find?_key_eq_some_iff h.eq_of_cell).2 ⟨he, rfl⟩

theorem row_lt {d : Diagram} (h : d.IsOrderly) {a b : Element} (ha : a ∈ d.elements)
    (hb : b ∈ d.elements) {ka kb : ElementKind} (hka : a.kind? = some ka)
    (hkb : b.kind? = some kb) (hside : ka.side < kb.side) : a.cell.row < b.cell.row := by
  obtain ⟨ka', hka', hrowa⟩ := h.kind a ha
  obtain ⟨kb', hkb', hrowb⟩ := h.kind b hb
  rw [hka] at hka'
  rw [hkb] at hkb'
  obtain rfl := Option.some.inj hka'
  obtain rfl := Option.some.inj hkb'
  rw [← hrowa, ← hrowb] at hside
  exact Int32.lt_iff_toInt_lt.2 (lt_of_sign_lt hside)

end IsOrderly

end Diagram

/-! ## Drawing a flow -/

theorem anchorsBetween_of_down {source target : Cell} (h : target.row < source.row) :
    anchorsBetween source target = (.bottom, .top) := by
  rw [anchorsBetween, if_pos h]

theorem anchorsBetween_of_up {source target : Cell} (h : source.row < target.row) :
    anchorsBetween source target = (.top, .bottom) := by
  rw [anchorsBetween, if_neg (Int32.lt_asymm h), if_pos h]

namespace Connection

/-- The anchors of a connection, that of its source first. -/
def anchors (c : Connection) : Anchor × Anchor := (c.source.anchor, c.target.anchor)

/-- A connection is drawn between two elements of a diagram: they alone have its ids, are what can
be seen in its cells, and stand in different rows.  A dashed one leads back from an event to a read
model, from side to bottom; a solid one leads down to a command or an event, or else up. -/
structure IsSound (d : Diagram) (source target : Element) (c : Connection) : Prop where
  source_only : ∀ e, e ∈ d.elements ∧ e.id = c.source.id ↔ e = source
  target_only : ∀ e, e ∈ d.elements ∧ e.id = c.target.id ↔ e = target
  source_seen : d.elementAt? c.source.cell = some source
  target_seen : d.elementAt? c.target.cell = some target
  row_ne : c.source.cell.row ≠ c.target.cell.row
  dashed : c.style = .dashed →
    source.kind? = some .event ∧ target.kind? = some .readModel ∧ c.anchors = (.left, .bottom)
  solid : c.style = .solid →
    ((target.kind? = some .command ∨ target.kind? = some .event) ∧ c.anchors = (.bottom, .top) ∧
        c.target.cell.row < c.source.cell.row) ∨
      ((target.kind? = some .readModel ∨ target.kind? = some .screen ∨
          target.kind? = some .automation) ∧ c.anchors = (.top, .bottom) ∧
        c.source.cell.row < c.target.cell.row)

/-- A connection draws a flow: it joins the ids of the flow, and it is sound. -/
def Draws (d : Diagram) (f : Flow) (c : Connection) : Prop :=
  c.source.id = f.source ∧ c.target.id = f.target ∧ ∃ source target, c.IsSound d source target

end Connection

/-- The only element with the id of an element is that element. -/
theorem Diagram.IsOrderly.only {d : Diagram} (h : d.IsOrderly) {e : Element}
    (he : e ∈ d.elements) (a : Element) : a ∈ d.elements ∧ a.id = e.id ↔ a = e := by
  constructor
  · rintro ⟨ha, hid⟩
    exact h.eq_of_id ha he hid
  · rintro rfl
    exact ⟨he, rfl⟩

namespace Flow

theorem anchors_of_backward {f : Flow} (hf : f.direction = .backward) (source target : Element) :
    f.anchors source target = (.left, .bottom) := by
  rw [anchors, hf]

theorem anchors_of_forward {f : Flow} (hf : f.direction = .forward) (source target : Element) :
    f.anchors source target = anchorsBetween source.cell target.cell := by
  rw [anchors, hf]

theorem style_eq_dashed_iff (f : Flow) : f.style = .dashed ↔ f.direction = .backward := by
  rw [style]
  cases f.direction <;> simp

theorem style_eq_solid_iff (f : Flow) : f.style = .solid ↔ f.direction = .forward := by
  rw [style]
  cases f.direction <;> simp

/-- The sides of its ends put the end of an allowed flow below its start, or above it. -/
theorem drawn_of_forward {d : Diagram} (h : d.IsOrderly) {f : Flow} {source target : Element}
    (hsource : source ∈ d.elements) (htarget : target ∈ d.elements)
    (hallowed : FlowTyping.violation? f source target = none) (hf : f.direction = .forward) :
    ((target.kind? = some .command ∨ target.kind? = some .event) ∧
        f.anchors source target = (.bottom, .top) ∧ target.cell.row < source.cell.row) ∨
      ((target.kind? = some .readModel ∨ target.kind? = some .screen ∨
          target.kind? = some .automation) ∧
        f.anchors source target = (.top, .bottom) ∧ source.cell.row < target.cell.row) := by
  have hjoins := FlowTyping.joins_of_forward hf hallowed
  obtain ⟨a, b, ha, hb, hpair⟩ := FlowTyping.exists_of_joins hjoins
  rw [anchors_of_forward hf, hb]
  simp only [Option.some.injEq]
  rcases FlowTyping.sides_of_isAllowed hpair with ⟨hkind, hside⟩ | ⟨hkind, hside⟩
  · have hdown := h.row_lt htarget hsource hb ha hside
    exact Or.inl ⟨hkind, anchorsBetween_of_down hdown, hdown⟩
  · have hup := h.row_lt hsource htarget ha hb hside
    exact Or.inr ⟨hkind, anchorsBetween_of_up hup, hup⟩

theorem row_ne_of_allowed {d : Diagram} (h : d.IsOrderly) {f : Flow} {source target : Element}
    (hsource : source ∈ d.elements) (htarget : target ∈ d.elements)
    (hallowed : FlowTyping.violation? f source target = none) :
    source.cell.row ≠ target.cell.row := by
  cases hf : f.direction with
  | forward =>
      rcases drawn_of_forward h hsource htarget hallowed hf with ⟨-, -, hdown⟩ | ⟨-, -, hup⟩
      · exact (Int32.ne_of_lt hdown).symm
      · exact Int32.ne_of_lt hup
  | backward =>
      obtain ⟨hevent, hreadModel⟩ := FlowTyping.kinds_of_backward hf hallowed
      exact Int32.ne_of_lt (h.row_lt hsource htarget hevent hreadModel (by decide))

theorem connection_isSound {d : Diagram} (h : d.IsOrderly) {f : Flow} {source target : Element}
    (hsource : source ∈ d.elements) (htarget : target ∈ d.elements)
    (hallowed : FlowTyping.violation? f source target = none) :
    (f.connection source target).IsSound d source target where
  source_only := h.only hsource
  target_only := h.only htarget
  source_seen := h.elementAt?_cell hsource
  target_seen := h.elementAt?_cell htarget
  row_ne := row_ne_of_allowed h hsource htarget hallowed
  dashed := by
    intro hdashed
    have hf := (style_eq_dashed_iff f).1 hdashed
    have hkinds := FlowTyping.kinds_of_backward hf hallowed
    exact ⟨hkinds.1, hkinds.2, anchors_of_backward hf source target⟩
  solid := by
    intro hsolid
    have hf := (style_eq_solid_iff f).1 hsolid
    exact drawn_of_forward h hsource htarget hallowed hf

end Flow

/-! ## Drawing a diagram -/

namespace Diagram.IsOrderly

theorem draws_of_hasEnds {d : Diagram} (h : d.IsOrderly) {f : Flow} (hf : f ∈ d.flows)
    (hends : d.HasEnds f) : ∃ c, (d.outcome f).connection? = some c ∧ c.Draws d f := by
  obtain ⟨source, target, hsource, htarget⟩ := hasEnds_iff.1 hends
  have hallowed := h.allowed f hf source target hsource htarget
  have hs := mem_of_element? hsource
  have ht := mem_of_element? htarget
  refine ⟨f.connection source target, ?_, hs.2, ht.2, source, target,
    Flow.connection_isSound h hs.1 ht.1 hallowed⟩
  rw [(outcome_of_ends hsource htarget).2, hallowed]
  rfl

theorem draws {d : Diagram} (h : d.IsOrderly) :
    List.Forall₂ (fun f c => Connection.Draws d f c) (d.flows.filter (d.HasEnds ·))
      d.connections := by
  rw [connections_eq, outcomes, List.filterMap_map]
  refine forall₂_filter_filterMap ?_ ?_
  · intro f hf hends
    exact h.draws_of_hasEnds hf (of_decide_eq_true hends)
  · intro f _ hends
    rw [Function.comp_apply, (outcome_of_not_hasEnds (of_decide_eq_false hends)).1]
    rfl

end Diagram.IsOrderly

theorem Document.orderly_of_no_findings {source : String}
    (h : (⟨{}, true⟩ : Settings).findings source = []) :
    (build source).diagram.IsOrderly := by
  refine Diagram.orderly_of_rules (nodup_id_build source) fun r => ?_
  have hnone (d : Diagnostic) : d ∉ ({} : RuleSet).diagnostics (build source).diagram := by
    have hrules : ({} : RuleSet).diagnostics (build source).diagram = [] :=
      (List.append_eq_nil_iff.1 h).2
    rw [hrules]
    exact List.not_mem_nil
  have henabled : ({} : RuleSet).enables r = true := by cases r <;> rfl
  have hnil : r.diagnostics (build source).diagram = [] := by
    rw [List.eq_nil_iff_forall_not_mem]
    exact fun d hd => hnone d (RuleSet.mem_diagnostics_iff.2 ⟨r, henabled, hd⟩)
  exact List.map_eq_nil_iff.1 hnil

namespace Settings

theorem of_check_denying {source : String} {report : Report}
    (h : (⟨{}, true⟩ : Settings).check source = .ok report) :
    (⟨{}, true⟩ : Settings).findings source = [] ∧
      report.diagram = (Document.build source).diagram ∧
      report.connections = report.diagram.connections := by
  rw [check_eq] at h
  split at h
  · exact absurd h (by simp)
  · rename_i hpass
    have hclean : (⟨{}, true⟩ : Settings).findings source = [] := by
      by_contra hne
      exact hpass (Or.inr ⟨rfl, hne⟩)
    generalize (Document.build source).diagram = d at h ⊢
    rw [← Except.ok.inj h]
    exact ⟨hclean, rfl, rfl⟩

/-- **Accepted documents are drawn soundly.**  If a check under all rules lets a document pass with
no warning at all, then its connections draw, one by one and in order, just the flows with two
ends, each between different rows and in the direction that its kinds of elements ask for. -/
theorem check_draws_soundly {source : String} {report : Report}
    (h : (⟨{}, true⟩ : Settings).check source = .ok report) :
    report.diagram = (Document.build source).diagram ∧
      List.Forall₂ (fun f c => Connection.Draws report.diagram f c)
        (report.diagram.flows.filter (report.diagram.HasEnds ·)) report.connections := by
  obtain ⟨hclean, hdiagram, hconnections⟩ := of_check_denying h
  have horderly : report.diagram.IsOrderly := by
    rw [hdiagram]
    exact Document.orderly_of_no_findings hclean
  refine ⟨hdiagram, ?_⟩
  rw [hconnections]
  exact horderly.draws

/-- A document with edges down, up and back, and a flow to nowhere. -/
def ordering : String :=
  "ELEMENT: 1, Command, A, 1;0
  ELEMENT: 2, event, B, 2,-1
  ELEMENT: 3, Read_Model, C, 3;0
  FLOW: 1 to 2
  FLOW: 1 to 7
  FLOW: 2 to 3
  BACK_FLOW: 2 to 3"

theorem check_draws_ordering :
    ∃ report, (⟨{}, true⟩ : Settings).check ordering = .ok report ∧
      report.connections.length = 3 ∧
      List.Forall₂ (fun f c => Connection.Draws report.diagram f c)
        (report.diagram.flows.filter (report.diagram.HasEnds ·)) report.connections := by
  obtain ⟨herrors, hclean, hthree⟩ : (Document.build ordering).diagnostics = [] ∧
      (⟨{}, true⟩ : Settings).findings ordering = [] ∧
      (Document.build ordering).diagram.connections.length = 3 := by decide +kernel
  have hcheck := check_eq ⟨{}, true⟩ ordering
  rw [if_neg (by simp [herrors, hclean])] at hcheck
  -- the projections below need not evaluate the diagram again
  generalize (Document.build ordering).diagram = d at hcheck hthree
  exact ⟨_, hcheck, hthree, (check_draws_soundly hcheck).2⟩

end Settings

end EventModel
