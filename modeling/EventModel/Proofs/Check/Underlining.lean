import EventModel.Check.Notice
import EventModel.Proofs.Check.Pointing

/-!
# What notices underline

A report has at most one primary label, and in front of all others
(`Settings.leadsWithPrimary_of_mem_findings`).  The whole line stands in where there is none, so
each notice of a check underlines exactly one place as that of the fault, first of all and inside
the line, and whatever it underlines lies between characters of the document
(`check_underlines_soundly`).
-/

namespace EventModel

/-! ## Primary labels -/

theorem Label.filter_of_forall_secondary {ls : List Label} (h : ∀ l ∈ ls, l.isPrimary = false) :
    ls.filter isPrimary = [] ∧ ls.filter isSecondary = ls := by
  refine ⟨List.filter_eq_nil_iff.2 fun l hl => ?_, List.filter_eq_self.2 fun l hl => ?_⟩
  · rw [h l hl]
    decide
  · rw [isSecondary, h l hl]
    rfl

namespace Diagnostic

/-- Only the first label can be primary. -/
def LeadsWithPrimary (d : Diagnostic) : Prop := ∀ l ∈ d.labels.tail, l.isPrimary = false

/-- Of the labels to show exactly the first is primary: the primary label of the report, or else the
whole line. -/
theorem exists_shownLabels {d : Diagnostic} (h : d.LeadsWithPrimary) :
    ∃ main, d.shownLabels = main :: d.labels.filter Label.isSecondary ∧ main.isPrimary = true ∧
      (d.labels.filter Label.isPrimary = [main] ∨
        (d.labels.filter Label.isPrimary = [] ∧
          main = .primary d.line.span d.code.description)) := by
  cases hlabels : d.labels with
  | nil => exact ⟨_, by rw [shownLabels, hlabels]; rfl, rfl, Or.inr ⟨rfl, rfl⟩⟩
  | cons first rest =>
      rw [LeadsWithPrimary, hlabels, List.tail_cons] at h
      obtain ⟨hprimary, hsecondary⟩ := Label.filter_of_forall_secondary h
      cases hfirst : first.isPrimary with
      | true =>
          refine ⟨first, ?_, hfirst, Or.inl ?_⟩
          · rw [shownLabels, hlabels, List.any_cons, hfirst, Bool.true_or, if_pos rfl,
              List.filter_cons_of_neg (by simp [Label.isSecondary, hfirst]), hsecondary]
          · rw [List.filter_cons_of_pos hfirst, hprimary]
      | false =>
          have hall : ∀ l ∈ first :: rest, l.isPrimary = false := List.forall_mem_cons.2 ⟨hfirst, h⟩
          obtain ⟨hnone, hself⟩ := Label.filter_of_forall_secondary hall
          have hany : ¬(first :: rest).any Label.isPrimary = true := by
            rw [List.any_eq_true]
            rintro ⟨l, hl, hlprimary⟩
            exact List.filter_eq_nil_iff.1 hnone l hl hlprimary
          refine ⟨_, ?_, rfl, Or.inr ⟨hnone, rfl⟩⟩
          rw [shownLabels, hlabels, if_neg hany, hself]

end Diagnostic

theorem Fault.leadsWithPrimary_diagnostic (fault : Fault) (s : Statement) :
    (fault.diagnostic s).LeadsWithPrimary := by
  rw [Diagnostic.LeadsWithPrimary]
  cases fault <;> simp [diagnostic, labels, Label.secondary]

theorem Violation.leadsWithPrimary_diagnostic (v : Violation) :
    v.diagnostic.LeadsWithPrimary := by
  intro l hl
  have hmem : l ∈ v.labels := List.mem_of_mem_tail hl
  cases v with
  | sharedCell e group =>
      obtain ⟨other, -, rfl⟩ := List.mem_map.1 hmem
      rfl
  | branchGap event command =>
      rw [List.mem_singleton.1 hmem]
      rfl
  | _ => exact absurd hmem List.not_mem_nil

namespace Settings

variable {settings : Settings} {source : String} {d : Diagnostic}

theorem leadsWithPrimary_of_mem_findings (h : d ∈ settings.findings source) :
    d.LeadsWithPrimary := by
  rw [findings_eq] at h
  rcases List.mem_append.1 h with h | h
  · rw [Document.diagnostics_build, List.mem_filterMap] at h
    obtain ⟨o, -, hd⟩ := h
    obtain ⟨fault, -, rfl⟩ := Option.map_eq_some_iff.1 hd
    exact fault.leadsWithPrimary_diagnostic o.statement
  · obtain ⟨r, hr⟩ := exists_rule_of_mem_warnings h
    obtain ⟨v, -, rfl⟩ := List.mem_map.1 hr
    exact v.leadsWithPrimary_diagnostic

theorem line_mem_of_mem_findings (h : d ∈ settings.findings source) :
    d.line ∈ Line.scan source := by
  rw [findings_eq] at h
  rcases List.mem_append.1 h with h | h
  · exact (Document.lines_diagnostics source).subset (List.mem_map_of_mem h)
  · obtain ⟨r, hr⟩ := exists_rule_of_mem_warnings h
    obtain ⟨v, hv, rfl⟩ := List.mem_map.1 hr
    exact Document.line_mem_of_isOn (Rule.isOn_of_mem_violations hv).1

end Settings

/-! ## Places -/

/-- An underlined stretch lies in a text, between characters. -/
structure Underline.Fits (source : String) (u : Underline) : Prop where
  stop_le : u.offset + u.length ≤ source.utf8ByteSize
  start_valid : String.Pos.Raw.IsValid source ⟨u.offset⟩
  stop_valid : String.Pos.Raw.IsValid source ⟨u.offset + u.length⟩

theorem Underline.offset_add_length (l : Label) :
    (ofLabel l).offset + (ofLabel l).length = l.span.stop :=
  Nat.add_sub_cancel' l.span.start_le_stop

theorem Label.IsTruthful.fits {source : String} {elements : List Element} {line : Line} {l : Label}
    (h : l.IsTruthful source elements line) : (Underline.ofLabel l).Fits source := by
  refine ⟨?_, h.start_valid, ?_⟩
  · rw [Underline.offset_add_length]
    exact h.stop_le
  · rw [Underline.offset_add_length]
    exact h.stop_valid

/-- The stretch is the place of the fault that is reported: what the only primary label marks, or
the whole line if there is none. -/
def Underline.IsPlaceOf (d : Diagnostic) (u : Underline) : Prop :=
  (∃ l, d.labels.filter Label.isPrimary = [l] ∧ u = .ofLabel l) ∨
    (d.labels.filter Label.isPrimary = [] ∧
      u = ⟨d.line.span.start, d.line.span.length, d.code.description, true⟩)

namespace Notice

/-- A notice shows a report on a text: it underlines the place of the fault first, as the only
primary place and inside the line, and then what the secondary labels mark, all in the text. -/
structure Draws (source : String) (d : Diagnostic) (n : Notice) (main : Underline)
    (others : List Underline) : Prop where
  problem : n = .problem d
  underlines : n.underlines? = some (main :: others)
  primary : main.isPrimary = true
  secondary : ∀ u ∈ others, u.isPrimary = false
  place : main.IsPlaceOf d
  remaining : others = (d.labels.filter Label.isSecondary).map Underline.ofLabel
  line : d.line.IsTruthful source
  start_le : d.line.span.start ≤ main.offset
  le_stop : main.offset + main.length ≤ d.line.span.stop
  fits : ∀ u ∈ main :: others, u.Fits source

theorem exists_draws {settings : Settings} {source : String} {d : Diagnostic}
    (h : d ∈ settings.findings source) :
    ∃ main others, (problem d).Draws source d main others := by
  have htruthful := Settings.isTruthful_of_mem_findings h
  have hline := Settings.line_mem_of_mem_findings h
  obtain ⟨main, hshown, hprimary, hmain⟩ :=
    Diagnostic.exists_shownLabels (Settings.leadsWithPrimary_of_mem_findings h)
  have hlabels : ∀ l ∈ d.shownLabels,
      l.IsTruthful source (Document.build source).diagram.elements d.line := by
    rw [hshown, List.forall_mem_cons]
    refine ⟨?_, fun l hl => htruthful.labels l (List.mem_of_mem_filter hl)⟩
    rcases hmain with hlabel | ⟨-, rfl⟩
    · have hmem : main ∈ d.labels.filter Label.isPrimary := by
        rw [hlabel]
        exact List.mem_singleton_self main
      exact htruthful.labels main (List.mem_of_mem_filter hmem)
    · exact Label.isTruthful_of_primary rfl (Line.isBoundary_start hline)
        (Line.isBoundary_stop hline) (Nat.le_refl _) (Nat.le_refl _)
  have hwithin := (hlabels main (hshown ▸ List.mem_cons_self)).primary hprimary
  refine ⟨.ofLabel main, (d.labels.filter Label.isSecondary).map .ofLabel, ?_⟩
  refine ⟨rfl, ?_, hprimary, ?_, ?_, rfl, htruthful.line, hwithin.1, ?_, ?_⟩
  · rw [underlines?, Diagnostic.underlines, hshown, List.map_cons]
  · rw [List.forall_mem_map]
    intro l hl
    have hsecondary := (List.mem_filter.1 hl).2
    rwa [Label.isSecondary, Bool.not_eq_true'] at hsecondary
  · rcases hmain with hlabel | ⟨hnone, rfl⟩
    · exact Or.inl ⟨main, hlabel, rfl⟩
    · exact Or.inr ⟨hnone, rfl⟩
  · rw [Underline.offset_add_length]
    exact hwithin.2
  · rw [← List.map_cons, ← hshown, List.forall_mem_map]
    exact fun l hl => (hlabels l hl).fits

end Notice

/-! ## Checks -/

namespace Settings

/-- **Notices underline soundly.**  Whether a document passes or not, there is one notice for each
report, in order; it underlines one place as that of the fault, first of all and in the line of the
report, and everything that it underlines is in the document, between characters. -/
theorem check_underlines_soundly (settings : Settings) (source : String) :
    (∃ report, settings.check source = .ok report ∧
      List.Forall₂ (fun d n => ∃ main others, Notice.Draws source d n main others)
        report.diagnostics (Notice.ofDiagnostics report.diagnostics)) ∨
    ∃ found, settings.check source = .error (.diagnostics found source) ∧
      List.Forall₂ (fun d n => ∃ main others, Notice.Draws source d n main others)
        found (Notice.ofFailure (.diagnostics found source)) := by
  have hall : List.Forall₂ (fun d n => ∃ main others, Notice.Draws source d n main others)
      (settings.findings source) (Notice.ofDiagnostics (settings.findings source)) := by
    rw [Notice.ofDiagnostics, List.forall₂_map_right_iff, List.forall₂_same]
    exact fun _ => Notice.exists_draws
  rw [check_eq]
  split
  · exact Or.inr ⟨settings.findings source, rfl, hall⟩
  · exact Or.inl ⟨_, rfl, hall⟩

end Settings

end EventModel
