import EventModel.Proofs.Check.Verdict
import EventModel.Proofs.Document.FaultLocation

/-!
# Where diagnostics point

Whatever reading, a rule or resolving reports stands on a line of the document and quotes it as it
is (`Line.isTruthful_of_mem_scan`).  Its labels lie between characters: primary ones inside that
line, and secondary ones on the line of another element (`check_points_truthfully`).
-/

namespace EventModel

/-! ## Lines -/

/-- A line is found in a text as it says: its text, with no white space at either end, at its
span, and its number from the line feeds before. -/
structure Line.IsTruthful (source : String) (line : Line) : Prop where
  bytes : line.span.bytes source = line.text.toByteArray
  nonempty : line.text ≠ ""
  trimmed : Text.trim line.text.toList = line.text.toList
  newline : '\n' ∉ line.text.toList
  number : ∃ before after, source.toList = before ++ after ∧
    line.span.start = Text.byteLength before ∧ line.number = 1 + before.count '\n'

theorem Line.isTruthful_of_mem_scan {source : String} {line : Line} (h : line ∈ scan source) :
    line.IsTruthful source :=
  ⟨bytes_span h, text_ne_empty h, trim_text h, newline_notMem_text h, number_eq h⟩

/-! ## Labels -/

/-- A label on a report on a line of a document points between characters: inside the line if it
is primary, and else at the line of one of the elements, which is another line. -/
structure Label.IsTruthful (source : String) (elements : List Element) (line : Line)
    (label : Label) : Prop where
  start_le_stop : label.span.start ≤ label.span.stop
  stop_le : label.span.stop ≤ source.utf8ByteSize
  start_valid : String.Pos.Raw.IsValid source ⟨label.span.start⟩
  stop_valid : String.Pos.Raw.IsValid source ⟨label.span.stop⟩
  primary : label.isPrimary = true →
    line.span.start ≤ label.span.start ∧ label.span.stop ≤ line.span.stop
  secondary : label.isPrimary = false →
    ∃ e ∈ elements, label.span = e.origin.span ∧ e.origin.number ≠ line.number

namespace Label

variable {source : String} {elements : List Element} {line : Line} {label : Label}

theorem isTruthful_of_boundaries (hstart : Text.IsBoundary source.toList label.span.start)
    (hstop : Text.IsBoundary source.toList label.span.stop)
    (hprimary : label.isPrimary = true →
      line.span.start ≤ label.span.start ∧ label.span.stop ≤ line.span.stop)
    (hsecondary : label.isPrimary = false →
      ∃ e ∈ elements, label.span = e.origin.span ∧ e.origin.number ≠ line.number) :
    label.IsTruthful source elements line := by
  have hle : label.span.stop ≤ source.utf8ByteSize := by
    rw [← Text.byteLength_toList]
    exact hstop.le
  exact ⟨label.span.start_le_stop, hle, hstart.isValid, hstop.isValid, hprimary, hsecondary⟩

theorem isTruthful_of_primary (hprimary : label.isPrimary = true)
    (hstart : Text.IsBoundary source.toList label.span.start)
    (hstop : Text.IsBoundary source.toList label.span.stop)
    (hfirst : line.span.start ≤ label.span.start) (hlast : label.span.stop ≤ line.span.stop) :
    label.IsTruthful source elements line := by
  refine isTruthful_of_boundaries hstart hstop (fun _ => ⟨hfirst, hlast⟩) fun hsecondary => ?_
  rw [hprimary] at hsecondary
  exact absurd hsecondary (by decide)

theorem isTruthful_of_secondary (hsecondary : label.isPrimary = false) {e : Element}
    (he : e ∈ elements) (horigin : e.origin ∈ Line.scan source)
    (hspan : label.span = e.origin.span) (hne : e.origin.number ≠ line.number) :
    label.IsTruthful source elements line := by
  have hstart := Line.isBoundary_start horigin
  have hstop := Line.isBoundary_stop horigin
  rw [← hspan] at hstart hstop
  refine isTruthful_of_boundaries hstart hstop ?_ fun _ => ⟨e, he, hspan, hne⟩
  intro hprimary
  rw [hsecondary] at hprimary
  exact absurd hprimary (by decide)

end Label

/-! ## Diagnostics -/

/-- A report quotes the first field of its line, which has the directive, trimmed and between two
texts, and has one label, which covers just this field. -/
def Diagnostic.QuotesField (source : String) (directive : Directive) (opening closing : String)
    (d : Diagnostic) : Prop :=
  ∃ written label,
    (Statement.ofLine d.line).directive = some directive ∧
    (Document.fields (Statement.ofLine d.line).payload).head? = some written ∧
    Text.trim written.text = written.text ∧
    d.message = opening ++ String.ofList written.text ++ closing ∧
    d.labels = [label] ∧ label.isPrimary = true ∧
    label.span.bytes source = (String.ofList written.text).toByteArray

/-- A report on a document with some elements is truthful about where it points. -/
structure Diagnostic.IsTruthful (source : String) (elements : List Element) (d : Diagnostic) :
    Prop where
  line : d.line.IsTruthful source
  labels : ∀ label ∈ d.labels, label.IsTruthful source elements d.line
  id_quoted : d.code = .nonNumericId →
    d.QuotesField source .element "Invalid element id `" "` (must be numeric)"
  kind_quoted : d.code = .unknownSliceKind →
    d.QuotesField source .slice "Unknown slice type `" "`"

/-! ## Faults -/

namespace Document

variable {source : String}

theorem origin_mem_scan {e : Element} (he : e ∈ (build source).diagram.elements) :
    e.origin ∈ Line.scan source :=
  (lines_elements source).subset (List.mem_map_of_mem he)

/-- An element that was accepted before a statement is one of the document, on another line. -/
theorem exists_of_mem_acceptedElements {o : Occurrence}
    (ho : o ∈ Occurrence.list (Statement.scan source)) {first : Element}
    (hfirst : first ∈ acceptedElements o.before) :
    ∃ e ∈ (build source).diagram.elements, e.origin = first.origin ∧
      e.origin.number ≠ o.statement.line.number := by
  have hscan := Occurrence.mem_list_iff.1 ho
  have haccepted : first ∈ acceptedElements (Statement.scan source) := by
    rw [hscan]
    exact (acceptedElements_isPrefix_append o.before _).subset hfirst
  -- the element may have got a note since, but its line is the same
  rw [← elements_build, List.mem_map] at haccepted
  obtain ⟨e, he, rfl⟩ := haccepted
  refine ⟨e, he, rfl, ?_⟩
  have hbefore : e.origin ∈ o.before.map (·.line) :=
    line_mem_of_origin_mem (List.mem_map.2 ⟨e.withoutNote, hfirst, rfl⟩)
  obtain ⟨t, ht, hline⟩ := List.mem_map.1 hbefore
  have hnumbers := Statement.pairwise_number_scan source
  rw [hscan, List.pairwise_append] at hnumbers
  have hlt := hnumbers.2.2 t ht o.statement List.mem_cons_self
  rw [hline] at hlt
  omega

theorem label_of_duplicateId {o : Occurrence}
    (ho : o ∈ Occurrence.list (Statement.scan source)) {first : Element}
    (hfirst : first ∈ acceptedElements o.before) {label : Label}
    (h : label ∈ (Fault.duplicateId first.id first.origin).labels o.statement) :
    label.IsTruthful source (build source).diagram.elements o.statement.line := by
  have hline := (Statement.line_mem_scan (Occurrence.statement_mem ho)).1
  rw [Fault.labels, List.mem_cons, List.mem_singleton] at h
  rcases h with rfl | rfl
  · exact Label.isTruthful_of_primary rfl (Line.isBoundary_start hline)
      (Line.isBoundary_stop hline) (Nat.le_refl _) (Nat.le_refl _)
  · obtain ⟨e, he, horigin, hne⟩ := exists_of_mem_acceptedElements ho hfirst
    refine Label.isTruthful_of_secondary rfl he (origin_mem_scan he) ?_ hne
    rw [horigin]
    rfl

theorem quotesField_of_fits {s : Statement} (hs : s ∈ Statement.scan source)
    {written : Text.Fragment} {directive : Directive} {d : Diagnostic} {remark : String}
    {opening closing : String} (hline : d.line = s.line) (hdirective : s.directive = some directive)
    (hhead : (fields s.payload).head? = some written)
    (hmessage : d.message = opening ++ String.ofList written.text ++ closing)
    (hlabels : d.labels = [Fault.labels.here s written.span remark]) :
    d.QuotesField source directive opening closing := by
  have hmem := List.mem_of_head? hhead
  have hof : Statement.ofLine d.line = s := by
    rw [hline]
    exact (Statement.line_mem_scan hs).2.symm
  refine ⟨written, _, ?_, ?_, trim_of_mem_fields hmem, hmessage, hlabels, rfl, ?_⟩
  · rw [hof, hdirective]
  · rw [hof, hhead]
  · exact Statement.bytes_locate hs (isPart_of_mem_fields hmem)

theorem isTruthful_of_mem_build {d : Diagnostic} (h : d ∈ (build source).diagnostics) :
    d.IsTruthful source (build source).diagram.elements := by
  rw [diagnostics_build, List.mem_filterMap] at h
  obtain ⟨o, ho, hd⟩ := h
  obtain ⟨fault, hfault, rfl⟩ := Option.map_eq_some_iff.1 hd
  have hs := Occurrence.statement_mem ho
  have hline := Line.isTruthful_of_mem_scan (Statement.line_mem_scan hs).1
  rcases Occurrence.fits_of_fault? hfault with hfits | ⟨first, hfirst, rfl⟩
  · refine ⟨hline, ?_, ?_, ?_⟩
    · intro label hlabel
      obtain ⟨hprimary, hstart, hstop, hlow, hhigh⟩ := Fault.label_of_fits hs hfits hlabel
      exact Label.isTruthful_of_primary hprimary hstart hstop hlow hhigh
    · intro hcode
      cases fault with
      | nonNumericId written => exact quotesField_of_fits hs rfl hfits.1 hfits.2 rfl rfl
      | _ => exact nomatch hcode
    · intro hcode
      cases fault with
      | unknownSliceKind written => exact quotesField_of_fits hs rfl hfits.1 hfits.2 rfl rfl
      | _ => exact nomatch hcode
  · refine ⟨hline, fun label hlabel => label_of_duplicateId ho hfirst hlabel, ?_, ?_⟩
    · exact fun hcode => nomatch hcode
    · exact fun hcode => nomatch hcode

/-! ## Violations -/

theorem line_mem_of_isOn {v : Violation} (h : v.IsOn (build source).diagram) :
    v.line ∈ Line.scan source := by
  cases v with
  | unrecognizedKind | outsideBand | sharedCell | branchGap => exact origin_mem_scan h.1
  | screenToAutomation | backFlow | disallowedFlow =>
      exact (lines_flows source).subset (List.mem_map_of_mem h)
  | sliceDefect => exact (lines_slices source).subset (List.mem_map_of_mem h)

/-- Rules point at elements other than the one that they report on: at one with another id, or at
a command where they report on an event. -/
theorem label_of_isOn {v : Violation} (h : v.IsOn (build source).diagram) {label : Label}
    (hlabel : label ∈ v.labels) :
    label.IsTruthful source (build source).diagram.elements v.line := by
  cases v with
  | sharedCell e group =>
      rw [Violation.labels, List.mem_map] at hlabel
      obtain ⟨other, hother, rfl⟩ := hlabel
      rw [List.mem_filter, bne_iff_ne] at hother
      have hmem := h.2 other hother.1
      refine Label.isTruthful_of_secondary rfl hmem (origin_mem_scan hmem) rfl ?_
      exact number_ne_of_ne hmem h.1 fun heq => hother.2 (by rw [heq])
  | branchGap event command =>
      obtain ⟨hevent, hcommand, heventKind, hcommandKind⟩ := h
      rw [Violation.labels, List.mem_singleton] at hlabel
      rw [hlabel]
      refine Label.isTruthful_of_secondary rfl hcommand (origin_mem_scan hcommand) rfl ?_
      refine number_ne_of_ne hcommand hevent fun heq => ?_
      rw [heq, Element.isKind, beq_iff_eq] at hcommandKind
      rw [Element.isKind, hcommandKind] at heventKind
      exact absurd heventKind (by decide)
  | _ => exact absurd hlabel List.not_mem_nil

theorem isTruthful_of_mem_rule {r : Rule} {d : Diagnostic}
    (h : d ∈ r.diagnostics (build source).diagram) :
    d.IsTruthful source (build source).diagram.elements := by
  obtain ⟨v, hv, rfl⟩ := List.mem_map.1 h
  have hon := (Rule.isOn_of_mem_violations hv).1
  refine ⟨Line.isTruthful_of_mem_scan (line_mem_of_isOn hon), ?_, ?_, ?_⟩
  · exact fun label hlabel => label_of_isOn hon hlabel
  · intro hcode
    cases v <;> exact nomatch hcode
  · intro hcode
    cases v <;> exact nomatch hcode

theorem isTruthful_of_mem_parse {rules : RuleSet} {d : Diagnostic}
    (h : d ∈ (parse rules source).diagnostics) :
    d.IsTruthful source (build source).diagram.elements := by
  rw [diagnostics_parse, List.mem_append] at h
  rcases h with h | h
  · exact isTruthful_of_mem_build h
  · obtain ⟨r, -, hr⟩ := RuleSet.mem_diagnostics_iff.1 h
    exact isTruthful_of_mem_rule hr

end Document

/-! ## Checks -/

/-- What a check shows, whether the document passes or not. -/
def shownDiagnostics : Except Failure Report → List Diagnostic
  | .ok report => report.diagnostics
  | .error (.diagnostics found _) => found
  | .error _ => []

namespace Settings

theorem shownDiagnostics_check (settings : Settings) (source : String) :
    shownDiagnostics (settings.check source) = settings.findings source := by
  rw [check_eq]
  split <;> rfl

theorem isTruthful_of_mem_findings {settings : Settings} {source : String} {d : Diagnostic}
    (h : d ∈ settings.findings source) :
    d.IsTruthful source (Document.build source).diagram.elements := by
  rw [findings_eq] at h
  rcases List.mem_append.1 h with h | h
  · exact Document.isTruthful_of_mem_build h
  · obtain ⟨r, hr⟩ := exists_rule_of_mem_warnings h
    exact Document.isTruthful_of_mem_rule hr

/-- **Diagnostics point truthfully into the document.**  Under any settings, whatever parsing or a
check reports stands on a line that is in the document as it is quoted, and has labels that point
where they say. -/
theorem check_points_truthfully (settings : Settings) (source : String) :
    (∀ d ∈ (Document.parse settings.rules source).diagnostics,
      d.IsTruthful source (Document.parse settings.rules source).diagram.elements) ∧
    ∀ d ∈ shownDiagnostics (settings.check source),
      d.IsTruthful source (Document.parse settings.rules source).diagram.elements := by
  refine ⟨fun d hd => Document.isTruthful_of_mem_parse hd, fun d hd => ?_⟩
  rw [shownDiagnostics_check] at hd
  exact isTruthful_of_mem_findings hd

/-- A document with white space and letters of several bytes, and an id that is taken twice. -/
def accented : String :=
  "
 \u3000ELEMENT: 1, UI, é, 1;2\r
 \u2003ELEMENT: 1, UI, ü, 2;2\u00a0"

theorem check_points_accented :
    ∃ d ∈ shownDiagnostics (({} : Settings).check accented),
      d.code = .duplicateId ∧ d.labels.length = 2 ∧
        d.IsTruthful accented (Document.parse {} accented).diagram.elements := by
  obtain ⟨d, hd, hcode, htwo⟩ : ∃ d ∈ shownDiagnostics (({} : Settings).check accented),
      d.code = .duplicateId ∧ d.labels.length = 2 := by decide +kernel
  exact ⟨d, hd, hcode, htwo, (check_points_truthfully {} accented).2 d hd⟩

end Settings

end EventModel
