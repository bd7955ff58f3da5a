import EventModel.Proofs.Check.Verdict
import EventModel.Proofs.Document.Layout
import EventModel.Proofs.Rule.Relabeling

/-!
# The layout of a checked document

Rules and resolving look at what is declared and not at where: taking the places off a diagram
first or off the violations afterwards comes to the same (`Rule.violations_withoutPlaces`), and the
connections are the same to begin with (`Diagram.connections_withoutPlaces`).  So the layout of a
document changes neither what is found nor what is drawn, and a check passes or fails whatever
the layout (`Settings.check_of_meaningfulTexts_eq`).
-/

namespace EventModel

/-- A violation by parts of a diagram, apart from the places of their lines. -/
def Violation.withoutPlaces : Violation → Violation
  | unrecognizedKind e => unrecognizedKind e.withoutPlace
  | outsideBand e kind band => outsideBand e.withoutPlace kind band
  | sharedCell e group => sharedCell e.withoutPlace (group.map Element.withoutPlace)
  | branchGap event command => branchGap event.withoutPlace command.withoutPlace
  | screenToAutomation f source target =>
    screenToAutomation f.withoutPlace source.withoutPlace target.withoutPlace
  | backFlow f source target => backFlow f.withoutPlace source.withoutPlace target.withoutPlace
  | disallowedFlow f source target =>
    disallowedFlow f.withoutPlace source.withoutPlace target.withoutPlace
  | sliceDefect s defect => sliceDefect s.withoutPlace defect

/-! ## Rules and resolving -/

/-- Nothing is decided by the places of lines. -/
def Relabeling.withoutPlaces : Relabeling where
  element := Element.withoutPlace
  flow := Flow.withoutPlace
  slice := Slice.withoutPlace
  id_element _ := rfl
  cell_element _ := rfl
  kind?_element _ := rfl
  source_flow _ := rfl
  target_flow _ := rfl
  direction_flow _ := rfl
  kind_slice _ := rfl
  columns_slice _ := rfl

theorem Relabeling.keepsNames_withoutPlaces : KeepsNames withoutPlaces :=
  ⟨fun _ => rfl, fun _ => rfl, fun _ => rfl⟩

theorem Violation.relabel_withoutPlaces (v : Violation) :
    v.relabel .withoutPlaces = v.withoutPlaces := by
  cases v <;> rfl

/-- A rule finds the same wherever the parts of a diagram stand in the document. -/
theorem Rule.violations_withoutPlaces (d : Diagram) (r : Rule) :
    r.violations d.withoutPlaces = (r.violations d).map Violation.withoutPlaces := by
  have hrelabel : r.violations d.withoutPlaces = _ := r.violations_relabel .withoutPlaces d
  rw [hrelabel]
  exact List.map_congr_left fun v _ => v.relabel_withoutPlaces

theorem Diagram.connections_withoutPlaces (d : Diagram) :
    d.withoutPlaces.connections = d.connections :=
  d.connections_relabel .withoutPlaces

/-! ## Reports -/

namespace Violation

theorem message_withoutPlaces (v : Violation) : v.withoutPlaces.message = v.message := by
  rw [← v.relabel_withoutPlaces]
  exact message_relabel Relabeling.keepsNames_withoutPlaces fun _ _ => rfl

theorem labels_withoutPlaces (v : Violation) :
    v.withoutPlaces.labels.map (·.isPrimary) = v.labels.map (·.isPrimary) := by
  cases v with
  | sharedCell e group =>
      rw [withoutPlaces, labels, labels, List.filter_map, List.map_map, List.map_map, List.map_map]
      rfl
  | _ => rfl

theorem agrees_withoutPlaces (v : Violation) : v.withoutPlaces.diagnostic.Agrees v.diagnostic := by
  have hcode : v.withoutPlaces.code = v.code := by rw [← v.relabel_withoutPlaces, v.code_relabel]
  have htext : v.withoutPlaces.line.text = v.line.text := by cases v <;> rfl
  have hhelp : v.withoutPlaces.help? = v.help? := by
    rw [← v.relabel_withoutPlaces, v.help?_relabel]
  exact ⟨hcode, congrArg Code.severity hcode, v.message_withoutPlaces, htext, hhelp,
    v.labels_withoutPlaces⟩

end Violation

section Reports

variable {d d' : Diagram} (h : d.withoutPlaces = d'.withoutPlaces)

include h

theorem Rule.agrees_diagnostics (r : Rule) :
    List.Forall₂ Diagnostic.Agrees (r.diagnostics d) (r.diagnostics d') := by
  have hviolations : (r.violations d).map Violation.withoutPlaces =
      (r.violations d').map Violation.withoutPlaces := by
    rw [← violations_withoutPlaces, h, violations_withoutPlaces]
  rw [diagnostics, diagnostics, List.forall₂_map_left_iff, List.forall₂_map_right_iff]
  -- two violations that are the same without places are each reported as what is left
  refine (map_eq_map_iff_forall₂.1 hviolations).imp fun v v' heq => ?_
  have hv' := v'.agrees_withoutPlaces
  rw [← heq] at hv'
  exact v.agrees_withoutPlaces.symm.trans hv'

theorem RuleSet.agrees_diagnostics (rules : RuleSet) :
    List.Forall₂ Diagnostic.Agrees (rules.diagnostics d) (rules.diagnostics d') := by
  rw [diagnostics, diagnostics]
  induction Rule.all.filter rules.enables with
  | nil => exact .nil
  | cons r rs ih => exact List.rel_append (r.agrees_diagnostics h) ih

theorem Diagram.agrees_rejections :
    List.Forall₂ Diagnostic.Agrees d.rejections d'.rejections := by
  rw [rejections_eq_filter, rejections_eq_filter]
  refine List.rel_filter ?_ (Rule.flowTypes.agrees_diagnostics h)
  intro x x' hx
  simp only [hx.code]

theorem Diagram.connections_eq_of_withoutPlaces : d.connections = d'.connections := by
  rw [← d.connections_withoutPlaces, h, d'.connections_withoutPlaces]

end Reports

/-! ## Checks -/

theorem Settings.isOk_check_iff (settings : Settings) (source : String) :
    (settings.check source).isOk = true ↔
      (Document.build source).diagnostics = [] ∧
        (settings.denyWarnings = true → settings.findings source = []) := by
  rw [check_eq]
  split
  · rename_i hfail
    refine iff_of_false (by simp [Except.isOk, Except.toBool]) ?_
    rintro ⟨herrors, hwarnings⟩
    rcases hfail with hfail | ⟨hdeny, hfail⟩
    · exact hfail herrors
    · exact hfail (hwarnings hdeny)
  · rename_i hpass
    rw [not_or, not_not, not_and, not_not] at hpass
    exact iff_of_true rfl hpass

section Checks

variable {source source' : String}
  (h : Document.meaningfulTexts source = Document.meaningfulTexts source')

include h

theorem Document.agrees_diagnostics_parse (rules : RuleSet) :
    List.Forall₂ Diagnostic.Agrees (parse rules source).diagnostics
      (parse rules source').diagnostics :=
  List.rel_append (agrees_diagnostics_build h)
    (rules.agrees_diagnostics (withoutPlaces_build_eq h))

theorem Settings.agrees_findings (settings : Settings) :
    List.Forall₂ Diagnostic.Agrees (settings.findings source) (settings.findings source') := by
  have hparsed := Document.agrees_diagnostics_parse h settings.rules
  simp only [findings, Document.diagram_parse]
  split
  · exact hparsed
  · exact List.rel_append hparsed (Diagram.agrees_rejections (Document.withoutPlaces_build_eq h))

theorem Settings.isOk_check_eq (settings : Settings) :
    (settings.check source).isOk = (settings.check source').isOk := by
  have hnil {ds ds' : List Diagnostic} (hds : List.Forall₂ Diagnostic.Agrees ds ds') :
      ds = [] ↔ ds' = [] := by
    rw [← List.length_eq_zero_iff, ← List.length_eq_zero_iff, hds.length_eq]
  rw [Bool.eq_iff_iff, isOk_check_iff, isOk_check_iff, hnil (Document.agrees_diagnostics_build h),
    hnil (settings.agrees_findings h)]

end Checks

/-- **The layout of a document does not matter.**  Documents whose meaningful lines, trimmed, are
the same declare the same and get the same reports under all settings, apart from places; the same
connections are drawn, and a check lets both pass or neither. -/
theorem Settings.check_of_meaningfulTexts_eq {source source' : String}
    (h : Document.meaningfulTexts source = Document.meaningfulTexts source')
    (settings : Settings) :
    (Document.parse settings.rules source).diagram.withoutPlaces =
        (Document.parse settings.rules source').diagram.withoutPlaces ∧
      List.Forall₂ Diagnostic.Agrees (Document.parse settings.rules source).diagnostics
        (Document.parse settings.rules source').diagnostics ∧
      (Document.parse settings.rules source).diagram.connections =
        (Document.parse settings.rules source').diagram.connections ∧
      (settings.check source).isOk = (settings.check source').isOk := by
  have hdiagram := Document.withoutPlaces_build_eq h
  simp only [Document.diagram_parse]
  exact ⟨hdiagram, Document.agrees_diagnostics_parse h settings.rules,
    Diagram.connections_eq_of_withoutPlaces hdiagram, settings.isOk_check_eq h⟩

/-- A document with a note of two lines and a fault. -/
def compact : String :=
  "\n".intercalate ["ELEMENT: 1, Event, A, 0;0", "TEXT: x", "y", "LEVEL: no"]

/-- The same document with comments, blank lines, indentation and carriage returns. -/
def spacious : String :=
  "\n".intercalate
    ["# head\r", "\r", "  ELEMENT: 1, Event, A, 0;0\r", "\tTEXT: x \r", " # inside\r", "\u3000y\r",
     "", "LEVEL: no"]

theorem Settings.check_of_meaningfulTexts_eq_spacious :
    Document.meaningfulTexts compact = Document.meaningfulTexts spacious ∧
      (Line.scan compact).map (·.number) = [1, 2, 3, 4] ∧
      (Line.scan spacious).map (·.number) = [3, 4, 6, 8] ∧
      List.Forall₂ Diagnostic.Agrees (Document.parse {} compact).diagnostics
        (Document.parse {} spacious).diagnostics ∧
      (({} : Settings).check compact).isOk = (({} : Settings).check spacious).isOk := by
  have htexts : Document.meaningfulTexts compact = Document.meaningfulTexts spacious := by
    rw [Document.meaningfulTexts, Document.meaningfulTexts, compact, spacious,
      String.toList_intercalate, String.toList_intercalate]
    decide +kernel
  have hnumbers : (Line.scan compact).map (·.number) = [1, 2, 3, 4] := by
    rw [Line.scan, compact, String.toList_intercalate]
    decide +kernel
  have hnumbers' : (Line.scan spacious).map (·.number) = [3, 4, 6, 8] := by
    rw [Line.scan, spacious, String.toList_intercalate]
    decide +kernel
  obtain ⟨-, hdiagnostics, -, hverdict⟩ := Settings.check_of_meaningfulTexts_eq htexts {}
  exact ⟨htexts, hnumbers, hnumbers', hdiagnostics, hverdict⟩

end EventModel
