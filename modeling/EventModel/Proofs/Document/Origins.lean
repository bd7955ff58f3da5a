import EventModel.Proofs.Document.Reading
import EventModel.Proofs.Source.Scanning

/-!
# Where the parts of a document stand

Whatever a document declares, and whatever is refused, stands on a meaningful line of its text.
Parts of one sort come in the order of their lines and never share a line (`lines_elements`,
`lines_flows`, `lines_slices`, `lines_diagnostics`).  On a line there is reported what is wrong with
its own statement (`diagnostics_on_line`).
-/

namespace EventModel

/-! ## Lines of accepted elements -/

theorem acceptedElements_isPrefix_append (before rest : List Statement) :
    acceptedElements before <+: acceptedElements (before ++ rest) := by
  induction rest using List.reverseRecOn with
  | nil => exact ⟨[], by rw [List.append_nil, List.append_nil]⟩
  | append_singleton rest s ih =>
      rw [← List.append_assoc, acceptedElements_concat]
      exact ih.trans (List.prefix_append _ _)

theorem lines_acceptedElements (ss : List Statement) :
    ((acceptedElements ss).map (·.origin)).Sublist (ss.map (·.line)) := by
  have haccepted : (acceptedElements ss).Sublist (ss.filterMap Statement.element?) :=
    eraseDupsBy_sublist _ _
  refine (haccepted.map _).trans (map_filterMap_sublist ?_ ss)
  intro s e he
  exact (Statement.of_element? he).1

theorem nodup_origin_acceptedElements {ss : List Statement} (h : (ss.map (·.line)).Nodup) :
    ((acceptedElements ss).map (·.origin)).Nodup :=
  h.sublist (lines_acceptedElements ss)

theorem line_mem_of_origin_mem {ss : List Statement} {line : Line}
    (h : line ∈ (acceptedElements ss).map (·.origin)) : line ∈ ss.map (·.line) :=
  (lines_acceptedElements ss).subset h

/-! ## Lines of a document -/

theorem Statement.map_line_scan (source : String) :
    (scan source).map (·.line) = Line.scan source := by
  have hline : Statement.line ∘ ofLine = id := by
    funext line
    exact line_ofLine line
  rw [scan, List.map_map, hline, List.map_id]

theorem Occurrence.map_statement_list (ss : List Statement) :
    (list ss).map (·.statement) = ss := by
  suffices h : ∀ before, (listFrom before ss).map (·.statement) = ss from h []
  induction ss with
  | nil => exact fun _ => rfl
  | cons s ss ih =>
      intro before
      rw [listFrom, List.map_cons, ih]

theorem Occurrence.statement_mem {ss : List Statement} {o : Occurrence} (h : o ∈ list ss) :
    o.statement ∈ ss := by
  rw [mem_list_iff.1 h]
  exact List.mem_append_right _ List.mem_cons_self

theorem Occurrence.exists_of_mem {ss : List Statement} {s : Statement} (h : s ∈ ss) :
    ∃ o ∈ list ss, o.statement = s := by
  obtain ⟨before, after, hss⟩ := List.append_of_mem h
  exact ⟨⟨before, s, after⟩, mem_list_iff.2 hss, rfl⟩

namespace Document

theorem lines_elements (source : String) :
    ((build source).diagram.elements.map (·.origin)).Sublist (Line.scan source) := by
  have hlines := lines_acceptedElements (Statement.scan source)
  rw [← elements_build, List.map_map, Statement.map_line_scan] at hlines
  exact hlines

theorem lines_flows (source : String) :
    ((build source).diagram.flows.map (·.origin)).Sublist (Line.scan source) := by
  rw [flows_build, ← Statement.map_line_scan]
  exact map_filterMap_sublist (fun s f hf => Statement.origin_of_flow? hf) _

theorem lines_slices (source : String) :
    ((build source).diagram.slices.map (·.origin)).Sublist (Line.scan source) := by
  rw [slices_build, ← Statement.map_line_scan]
  exact map_filterMap_sublist (fun s slice hslice => Statement.origin_of_slice? hslice) _

theorem lines_diagnostics (source : String) :
    ((build source).diagnostics.map (·.line)).Sublist (Line.scan source) := by
  have hlines : ((Occurrence.list (Statement.scan source)).map (·.statement.line)) =
      Line.scan source := by
    rw [← Statement.map_line_scan]
    conv => rhs; rw [← Occurrence.map_statement_list (Statement.scan source), List.map_map]
    rfl
  rw [diagnostics_build, ← hlines]
  refine map_filterMap_sublist ?_ _
  intro o d hd
  obtain ⟨fault, -, rfl⟩ := Option.map_eq_some_iff.1 hd
  rfl

/-- On a line there is reported what is wrong with its statement, and nothing else. -/
theorem diagnostics_on_line {source : String} {o : Occurrence}
    (h : o ∈ Occurrence.list (Statement.scan source)) :
    (build source).diagnostics.filter (·.line = o.statement.line) = o.diagnostic?.toList := by
  have hnodup : ((Occurrence.list (Statement.scan source)).map (·.statement.line)).Nodup := by
    have hlines := Statement.nodup_line_scan source
    rw [← Occurrence.map_statement_list (Statement.scan source), List.map_map] at hlines
    exact hlines
  rw [diagnostics_build, List.filter_filterMap, ← filterMap_of_key hnodup h]
  apply List.filterMap_congr
  intro o' _
  rw [Occurrence.diagnostic?]
  cases o'.fault? with
  | none => simp
  | some fault => simp [Option.filter, Fault.diagnostic]

/-- An element is declared by the statement on its line. -/
theorem exists_element? {source : String} {e : Element}
    (h : e ∈ (build source).diagram.elements) :
    ∃ s ∈ Statement.scan source, s.element? = some e.withoutNote ∧ e.origin = s.line := by
  have haccepted : e.withoutNote ∈ acceptedElements (Statement.scan source) := by
    rw [← elements_build]
    exact List.mem_map_of_mem h
  obtain ⟨s, hs, he⟩ := List.mem_filterMap.1 ((eraseDupsBy_sublist _ _).subset haccepted)
  exact ⟨s, hs, he, (Statement.of_element? he).1⟩

/-- A refused statement is reported on its line and adds no element. -/
theorem refused_on_line {source : String} {s : Statement} (hs : s ∈ Statement.scan source)
    {d : Directive} (hd : s.directive = some d) {fault : Fault} (h : s.declaration = .error fault) :
    (build source).diagnostics.filter (·.line = s.line) = [fault.diagnostic s] ∧
      ∀ e ∈ (build source).diagram.elements, e.origin ≠ s.line := by
  constructor
  · obtain ⟨o, ho, rfl⟩ := Occurrence.exists_of_mem hs
    have hreport : o.diagnostic? = some (fault.diagnostic o.statement) := by
      rw [Occurrence.diagnostic?, Occurrence.fault?, hd, h, Option.map_some]
    rw [diagnostics_on_line ho, hreport, Option.toList_some]
  · intro e he horigin
    obtain ⟨t, ht, helement, hline⟩ := exists_element? he
    have hsame : t = s := by
      rw [(Statement.line_mem_scan ht).2, (Statement.line_mem_scan hs).2, ← hline, horigin]
    rw [hsame, Statement.element?, h] at helement
    exact absurd helement (by simp)

theorem pairwise_number_of_sublist {α : Type} {line : α → Line} {source : String} {as : List α}
    (h : (as.map line).Sublist (Line.scan source)) :
    as.Pairwise fun a b => (line a).number < (line b).number := by
  have hlines := (Line.pairwise_number_scan source).sublist h
  rw [List.pairwise_map] at hlines
  exact hlines

theorem number_ne_of_ne {source : String} {a b : Element}
    (ha : a ∈ (build source).diagram.elements) (hb : b ∈ (build source).diagram.elements)
    (hne : a ≠ b) : a.origin.number ≠ b.origin.number := by
  have hlines : (build source).diagram.elements.Pairwise
      fun a b => a.origin.number ≠ b.origin.number :=
    (pairwise_number_of_sublist (lines_elements source)).imp Nat.ne_of_lt
  have hsymm : Std.Symm fun a b : Element => a.origin.number ≠ b.origin.number :=
    ⟨fun _ _ h => h.symm⟩
  exact hlines.forall ha hb hne

end Document

end EventModel
