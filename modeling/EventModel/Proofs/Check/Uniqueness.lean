import EventModel.Proofs.Check.Pointing
import Mathlib.Data.List.Sort

/-!
# Each problem is reported once

The findings of a check come from reading, from three rules and from resolving.  No two of them
report the same thing (`check_reports_once`): what stands under one code stands on different lines,
save for gaps in branches, where an event of several commands is reported once for each.
-/

namespace EventModel

/-! ## What tells reports apart -/

/-- The places of all that a report has to do with, besides the fault itself. -/
def Diagnostic.secondarySpans (d : Diagnostic) : List Span :=
  (d.labels.filter Label.isSecondary).map Label.span

/-- Two reports differ in code or in line number, or else they are about gaps in the branches of
different commands. -/
def Diagnostic.IsApart (d e : Diagnostic) : Prop :=
  d.code = e.code → d.line.number = e.line.number →
    d.code = .branchGap ∧ d.secondarySpans ≠ e.secondarySpans

namespace Diagnostic

theorem isApart_of_code_ne {d e : Diagnostic} (h : d.code ≠ e.code) : d.IsApart e :=
  fun hcode => absurd hcode h

theorem isApart_of_category_ne {d e : Diagnostic} (h : d.category ≠ e.category) : d.IsApart e :=
  isApart_of_code_ne fun hcode => h (by rw [category, category, hcode])

theorem isApart_of_number_ne {d e : Diagnostic} (h : d.line.number ≠ e.line.number) :
    d.IsApart e :=
  fun _ hnumber => absurd hnumber h

theorem IsApart.ne {d e : Diagnostic} (h : d.IsApart e) : d ≠ e := by
  rintro rfl
  exact (h rfl rfl).2 rfl

end Diagnostic

theorem isApart_of_ascending {ds : List Diagnostic} (h : AscendingByLine ds) :
    ds.Pairwise Diagnostic.IsApart :=
  h.imp fun hlt => Diagnostic.isApart_of_number_ne (Nat.ne_of_lt hlt)

/-- Under one code only gaps in branches share a line. -/
theorem pairwise_filter_code {ds : List Diagnostic} (h : ds.Pairwise Diagnostic.IsApart)
    (code : Code) :
    (ds.filter (·.code == code)).Pairwise fun d e => d.line.number = e.line.number →
      code = .branchGap ∧ d.secondarySpans ≠ e.secondarySpans := by
  refine (h.sublist List.filter_sublist).imp_of_mem fun {d e} hd he hapart hnumber => ?_
  have hdcode : d.code = code := beq_iff_eq.1 (List.mem_filter.1 hd).2
  have hecode : e.code = code := beq_iff_eq.1 (List.mem_filter.1 he).2
  rw [← hdcode]
  exact hapart (hdcode.trans hecode.symm) hnumber

theorem length_le_one_of_pairwise {α : Type} {R : α → α → Prop} {as : List α}
    (h : as.Pairwise R) (hnot : ∀ a ∈ as, ∀ b ∈ as, ¬R a b) : as.length ≤ 1 := by
  match as with
  | [] => exact Nat.zero_le 1
  | [a] => exact Nat.le_refl 1
  | a :: b :: as =>
      have hab : R a b := (List.pairwise_cons.1 h).1 b List.mem_cons_self
      exact absurd hab
        (hnot a List.mem_cons_self b (List.mem_cons_of_mem a List.mem_cons_self))

/-! ## Lines and their places -/

theorem Text.eq_of_byteLength_eq {as bs xs ys : List Char} (h : as ++ xs = bs ++ ys)
    (hlength : byteLength as = byteLength bs) : as = bs := by
  induction as generalizing bs with
  | nil =>
      cases bs with
      | nil => rfl
      | cons b bs =>
          have hsize := b.utf8Size_pos
          rw [byteLength_nil, byteLength_cons] at hlength
          omega
  | cons a as ih =>
      cases bs with
      | nil =>
          have hsize := a.utf8Size_pos
          rw [byteLength_nil, byteLength_cons] at hlength
          omega
      | cons b bs =>
          obtain ⟨rfl, hrest⟩ := List.cons.inj h
          rw [byteLength_cons, byteLength_cons, Nat.add_left_cancel_iff] at hlength
          rw [ih hrest hlength]

/-- A line is known by its place. -/
theorem Line.number_eq_of_span_eq {source : String} {a b : Line} (ha : a ∈ scan source)
    (hb : b ∈ scan source) (h : a.span = b.span) : a.number = b.number := by
  obtain ⟨before, after, hsource, hstart, hnumber⟩ := number_eq ha
  obtain ⟨before', after', hsource', hstart', hnumber'⟩ := number_eq hb
  rw [hsource] at hsource'
  have hsame : before = before' :=
    Text.eq_of_byteLength_eq hsource' (by rw [← hstart, ← hstart', h])
  rw [hnumber, hnumber', hsame]

/-! ## Rules -/

namespace Positioning

variable {source : String}

theorem pairwise_number_sharedCells :
    (sharedCells (Document.build source).diagram.elements).Pairwise
      fun v w => v.line.number ≠ w.line.number := by
  rw [sharedCells_eq, List.pairwise_flatMap]
  constructor
  · intro cell _
    rw [sharedCellViolations]
    split
    · rw [List.pairwise_map]
      have hlines := Document.pairwise_number_of_sublist (Document.lines_elements source)
      exact (hlines.sublist List.filter_sublist).imp Nat.ne_of_lt
    · exact List.Pairwise.nil
  · -- an element stands in one cell only
    refine (pairwise_eraseDupsBy_key id _).imp fun {cell cell'} hcell v hv w hw => ?_
    have hmem {cell : Cell} {v : Violation}
        (h : v ∈ sharedCellViolations
          (occupants (Document.build source).diagram.elements cell)) :
        ∃ e ∈ (Document.build source).diagram.elements, e.cell = cell ∧ v.line = e.origin := by
      rw [sharedCellViolations] at h
      split at h
      · obtain ⟨e, he, rfl⟩ := List.mem_map.1 h
        exact ⟨e, (mem_occupants.1 he).1, (mem_occupants.1 he).2, rfl⟩
      · exact absurd h List.not_mem_nil
    obtain ⟨a, ha, rfl, hline⟩ := hmem hv
    obtain ⟨b, hb, rfl, hline'⟩ := hmem hw
    rw [hline, hline']
    exact Document.number_ne_of_ne ha hb fun heq => hcell (by rw [heq])

/-- An event is in a branch once, and different commands stand at different places. -/
theorem pairwise_isApart_branchGaps :
    ((branchGaps (Document.build source).diagram).map Violation.diagnostic).Pairwise
      Diagnostic.IsApart := by
  rw [List.pairwise_map, branchGaps, List.pairwise_flatMap]
  have hgap {command : Element} {v : Violation}
      (h : v ∈ branchViolations (Document.build source).diagram command) :
      ∃ event, v = .branchGap event command := by
    simp only [branchViolations] at h
    split at h
    · exact absurd h List.not_mem_nil
    · obtain ⟨event, -, rfl⟩ := List.mem_map.1 h
      exact ⟨event, rfl⟩
  constructor
  · intro command _
    simp only [branchViolations]
    split
    · exact List.Pairwise.nil
    · rw [List.pairwise_map]
      refine (pairwise_id_branch _ command).imp_of_mem fun ha hb hid => ?_
      refine Diagnostic.isApart_of_number_ne ?_
      exact Document.number_ne_of_ne (of_mem_branch ha).1 (of_mem_branch hb).1
        fun heq => hid (by rw [heq])
  · have hlines := Document.pairwise_number_of_sublist (Document.lines_elements source)
    refine (hlines.sublist List.filter_sublist).imp_of_mem
      fun {command command'} hcommand hcommand' hlt v hv w hw _ _ => ?_
    obtain ⟨event, rfl⟩ := hgap hv
    obtain ⟨event', rfl⟩ := hgap hw
    refine ⟨rfl, fun hspans => ?_⟩
    have hspan : command.origin.span = command'.origin.span := (List.cons.inj hspans).1
    have hnumber := Line.number_eq_of_span_eq
      (Document.origin_mem_scan (List.mem_of_mem_filter hcommand))
      (Document.origin_mem_scan (List.mem_of_mem_filter hcommand')) hspan
    omega

theorem pairwise_isApart_violations :
    (Rule.positioning.diagnostics (Document.build source).diagram).Pairwise
      Diagnostic.IsApart := by
  have hrows := isApart_of_ascending (Document.ascending_of_sublist
    ((Document.lines_rowViolations _).trans (Document.lines_elements source)))
  have hcells : ((sharedCells (Document.build source).diagram.elements).map
      Violation.diagnostic).Pairwise Diagnostic.IsApart := by
    rw [List.pairwise_map]
    exact pairwise_number_sharedCells.imp Diagnostic.isApart_of_number_ne
  -- the three conventions report under different codes
  have hrowCode {d : Diagnostic} (h : d ∈ (rowViolations
      (Document.build source).diagram.elements).map Violation.diagnostic) :
      d.code = .unrecognizedKind ∨ d.code = .rowConvention := by
    obtain ⟨v, hv, rfl⟩ := List.mem_map.1 h
    rcases mem_rowViolations.1 hv with ⟨e, -, -, rfl⟩ | ⟨e, -, -, -, -, rfl⟩
    · exact Or.inl rfl
    · exact Or.inr rfl
  have hcellCode {d : Diagnostic} (h : d ∈ (sharedCells
      (Document.build source).diagram.elements).map Violation.diagnostic) :
      d.code = .sharedPosition := by
    obtain ⟨v, hv, rfl⟩ := List.mem_map.1 h
    obtain ⟨e, -, -, rfl⟩ := mem_sharedCells.1 hv
    rfl
  have hgapCode {d : Diagnostic} (h : d ∈ (branchGaps
      (Document.build source).diagram).map Violation.diagnostic) : d.code = .branchGap := by
    obtain ⟨v, hv, rfl⟩ := List.mem_map.1 h
    obtain ⟨command, -, -, -, event, -, rfl⟩ := mem_branchGaps.1 hv
    rfl
  rw [Rule.diagnostics, Rule.violations, violations, List.map_append, List.map_append,
    List.pairwise_append, List.pairwise_append]
  refine ⟨⟨hrows, hcells, ?_⟩, pairwise_isApart_branchGaps, ?_⟩
  · intro d hd e he
    refine Diagnostic.isApart_of_code_ne ?_
    rcases hrowCode hd with hcode | hcode <;> rw [hcode, hcellCode he] <;> decide
  · intro d hd e he
    refine Diagnostic.isApart_of_code_ne ?_
    rw [hgapCode he]
    rcases List.mem_append.1 hd with hd | hd
    · rcases hrowCode hd with hcode | hcode <;> rw [hcode] <;> decide
    · rw [hcellCode hd]
      decide

end Positioning

theorem Rule.pairwise_isApart_diagnostics (r : Rule) (source : String) :
    (r.diagnostics (Document.build source).diagram).Pairwise Diagnostic.IsApart := by
  cases r with
  | positioning => exact Positioning.pairwise_isApart_violations
  | flowTypes =>
      exact isApart_of_ascending (Document.ascending_of_sublist (Document.lines_flowTypes source))
  | slices =>
      exact isApart_of_ascending
        (Document.ascending_of_sublist (Document.lines_composition source))

/-! ## Checks -/

theorem RuleSet.pairwise_isApart_diagnostics (rules : RuleSet) (source : String) :
    (rules.diagnostics (Document.build source).diagram).Pairwise Diagnostic.IsApart := by
  have hrules : (Rule.all.filter rules.enables).Pairwise fun r r' => r ≠ r' :=
    List.Pairwise.sublist List.filter_sublist (by decide : Rule.all.Nodup)
  rw [diagnostics, List.pairwise_flatMap]
  refine ⟨fun r _ => r.pairwise_isApart_diagnostics source, hrules.imp ?_⟩
  intro r r' hne d hd e he
  refine Diagnostic.isApart_of_category_ne ?_
  rw [(Rule.category_of_mem_diagnostics hd).1, (Rule.category_of_mem_diagnostics he).1]
  intro hcategory
  cases r <;> cases r' <;> simp_all [Rule.category]

namespace Settings

theorem pairwise_isApart_findings (settings : Settings) (source : String) :
    (settings.findings source).Pairwise Diagnostic.IsApart := by
  have herrors :=
    isApart_of_ascending (Document.ascending_of_sublist (Document.lines_diagnostics source))
  have hrules := settings.rules.pairwise_isApart_diagnostics source
  have hwarnings : (settings.warnings source).Pairwise Diagnostic.IsApart := by
    rw [warnings]
    split
    · exact hrules
    · rename_i hflow
      rw [List.pairwise_append]
      refine ⟨hrules, isApart_of_ascending (Document.pairwise_number_rejections source), ?_⟩
      intro d hd e he
      obtain ⟨r, hr, hmem⟩ := RuleSet.mem_diagnostics_iff.1 hd
      refine Diagnostic.isApart_of_category_ne ?_
      rw [(Rule.category_of_mem_diagnostics hmem).1, (Rule.category_of_mem_diagnostics
        (Diagram.mem_flowTypes_of_mem_rejections he)).1]
      cases r with
      | positioning => decide
      | flowTypes => exact absurd hr hflow
      | slices => decide
  rw [findings_eq, List.pairwise_append]
  refine ⟨herrors, hwarnings, ?_⟩
  intro d hd e he
  refine Diagnostic.isApart_of_category_ne fun hcategory => ?_
  have hwarning := isError_of_mem_warnings he
  rw [(Document.category_of_mem_diagnostics_build hd).1] at hcategory
  rw [(Diagnostic.isError_iff e).2 hcategory.symm] at hwarning
  exact absurd hwarning (by decide)

/-- A report of a gap in a branch points at one other place, which is that of the command. -/
theorem secondarySpans_of_branchGap {settings : Settings} {source : String} {d : Diagnostic}
    (h : d ∈ settings.findings source) (hcode : d.code = .branchGap) :
    ∃ command ∈ (Document.build source).diagram.elements,
      d.secondarySpans = [command.origin.span] := by
  rw [findings_eq, List.mem_append] at h
  rcases h with h | h
  · have hcategory := (Document.category_of_mem_diagnostics_build h).1
    rw [Diagnostic.category, hcode] at hcategory
    exact absurd hcategory (by decide)
  · obtain ⟨r, hr⟩ := exists_rule_of_mem_warnings h
    obtain ⟨v, hv, rfl⟩ := List.mem_map.1 hr
    have hon := (Rule.isOn_of_mem_violations hv).1
    cases v with
    | branchGap event command => exact ⟨command, hon.2.1, rfl⟩
    | _ => cases hcode

/-- **Each problem is reported once.**  A check, whether the document passes or not, shows no
report twice and no two under one code on one line.  Gaps in branches alone may be reported on a
line more than once, but each time for another command. -/
theorem check_reports_once (settings : Settings) (source : String) :
    (shownDiagnostics (settings.check source)).Nodup ∧
    (∀ code : Code, code ≠ .branchGap →
      (((shownDiagnostics (settings.check source)).filter (·.code == code)).map
        (·.line.number)).Nodup) ∧
    (((shownDiagnostics (settings.check source)).filter (·.code == .branchGap)).map
      fun d => (d.line.number, d.secondarySpans)).Nodup ∧
    ∀ event command : Element,
      ((shownDiagnostics (settings.check source)).filter fun d =>
        d.code == .branchGap && d.line == event.origin &&
          d.secondarySpans.contains command.origin.span).length ≤ 1 := by
  rw [shownDiagnostics_check]
  have hapart := pairwise_isApart_findings settings source
  refine ⟨hapart.imp Diagnostic.IsApart.ne, ?_, ?_, ?_⟩
  · intro code hcode
    rw [List.Nodup, List.pairwise_map]
    refine (pairwise_filter_code hapart code).imp fun h hnumber => ?_
    exact hcode (h hnumber).1
  · rw [List.Nodup, List.pairwise_map]
    refine (pairwise_filter_code hapart .branchGap).imp fun h heq => ?_
    obtain ⟨hnumber, hspans⟩ := Prod.mk.inj heq
    exact (h hnumber).2 hspans
  · intro event command
    refine length_le_one_of_pairwise (hapart.sublist List.filter_sublist) ?_
    have hsame {d : Diagnostic} (h : d ∈ (settings.findings source).filter fun d =>
        d.code == .branchGap && d.line == event.origin &&
          d.secondarySpans.contains command.origin.span) :
        d.code = .branchGap ∧ d.line = event.origin ∧
          d.secondarySpans = [command.origin.span] := by
      rw [List.mem_filter, Bool.and_eq_true, Bool.and_eq_true, beq_iff_eq, beq_iff_eq,
        List.contains_iff_mem] at h
      obtain ⟨hd, ⟨hcode, hline⟩, hspan⟩ := h
      obtain ⟨other, -, hspans⟩ := secondarySpans_of_branchGap hd hcode
      rw [hspans, List.mem_singleton] at hspan
      exact ⟨hcode, hline, by rw [hspans, hspan]⟩
    intro d hd e he hde
    obtain ⟨hcode, hline, hspans⟩ := hsame hd
    obtain ⟨hcode', hline', hspans'⟩ := hsame he
    exact (hde (hcode.trans hcode'.symm) (by rw [hline, hline'])).2 (hspans.trans hspans'.symm)

/-- Two commands with flows to the same two events, one of them twice, and an element in the cell
of one event. -/
def branching : String :=
  "\n".intercalate
    ["ELEMENT: 1, Command, A, 0;0", "ELEMENT: 2, Command, B, 5;0", "ELEMENT: 3, Event, C, 0;-1",
     "ELEMENT: 4, Event, D, 2;-1", "ELEMENT: 5, Event, E, 0;-1", "FLOW: 1 to 3", "FLOW: 1 to 4",
     "FLOW: 1 to 3", "FLOW: 2 to 4", "FLOW: 2 to 3"]

theorem check_reports_once_branching :
    (Code.sharedPosition ≠ .branchGap ∧
      (((shownDiagnostics (({} : Settings).check branching)).filter
        (·.code == .sharedPosition)).map (·.line.number)).Nodup) ∧
    (Positioning.branchGaps (Document.build branching).diagram).map (·.line.number) =
      [3, 4, 4, 3] := by
  refine ⟨⟨by decide, (check_reports_once {} branching).2.1 .sharedPosition (by decide)⟩, ?_⟩
  have hviolations (d : Diagram) : Positioning.branchViolations d = fun command =>
      if Positioning.noGap
        (((Positioning.branch d command).map Element.column).insertionSort (· ≤ ·))
      then [] else (Positioning.branch d command).map fun event => .branchGap event command := by
    funext command
    rw [Positioning.branchViolations, Positioning.areConsecutive,
      List.mergeSort_eq_insertionSort (· ≤ ·)]
  rw [Positioning.branchGaps, hviolations, Document.build, Statement.scan, Line.scan, branching,
    String.toList_intercalate]
  decide +kernel

end Settings

end EventModel
