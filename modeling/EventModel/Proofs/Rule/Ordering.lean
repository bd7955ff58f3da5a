import EventModel.Proofs.Document.Origins
import EventModel.Proofs.Rule.Violations

/-!
# The order of reports

What is reported on a document comes in layers: errors, then what each rule reports.  Switching a
rule off takes its layer away and changes nothing else, and inside the layers the order is that of
the lines, save for positioning, whose conventions report one after the other
(`parse_layered`).
-/

namespace EventModel

/-- Whether reports in a category are made under some rules; errors are reported under all. -/
def RuleSet.admits (rules : RuleSet) : Category → Bool
  | .grammar => true
  | .positioning => rules.positioning
  | .flowType => rules.flowTypes
  | .composition => rules.slices

namespace Document

/-- What is reported in a category. -/
def reported (d : Document) (c : Category) : List Diagnostic :=
  d.diagnostics.filter fun x => x.category == c

/-- What is reported under some codes. -/
def reportedUnder (d : Document) (codes : List Code) : List Diagnostic :=
  d.diagnostics.filter fun x => codes.contains x.code

end Document

/-- The diagnostics stand on different lines, in order. -/
def AscendingByLine (ds : List Diagnostic) : Prop :=
  ds.Pairwise fun d e => d.line.number < e.line.number

/-! ## One category -/

theorem filter_of_category {ds : List Diagnostic} {c : Category}
    (h : ∀ d ∈ ds, d.category = c) (p : Category → Bool) :
    (ds.filter fun d => p d.category) = if p c then ds else [] :=
  filter_eq_ite fun d hd => by rw [h d hd]

theorem Fault.category_diagnostic (fault : Fault) (s : Statement) :
    (fault.diagnostic s).category = .grammar := by
  cases fault <;> rfl

theorem Document.category_of_mem_diagnostics_build {source : String} {d : Diagnostic}
    (h : d ∈ (build source).diagnostics) : d.category = .grammar ∧ d.isError = true := by
  rw [diagnostics_build, List.mem_filterMap] at h
  obtain ⟨o, -, ho⟩ := h
  obtain ⟨fault, -, rfl⟩ := Option.map_eq_some_iff.1 ho
  exact ⟨fault.category_diagnostic _, fault.diagnostic_isError _⟩

theorem Diagnostic.isError_iff (d : Diagnostic) : d.isError = true ↔ d.category = .grammar := by
  rw [isError, beq_iff_eq]
  exact d.code.severity_eq_error_iff

/-! ## Switching rules off -/

theorem RuleSet.diagnostics_eq_flatMap (rules : RuleSet) (d : Diagram) :
    rules.diagnostics d =
      Rule.all.flatMap fun r => if rules.admits r.category then r.diagnostics d else [] := by
  have henables (r : Rule) : rules.admits r.category = rules.enables r := by cases r <;> rfl
  simp only [henables]
  rw [diagnostics]
  induction Rule.all with
  | nil => rfl
  | cons r rs ih =>
      rw [List.flatMap_cons, ← ih]
      by_cases h : rules.enables r = true
      · rw [List.filter_cons_of_pos h, List.flatMap_cons, if_pos h]
      · rw [List.filter_cons_of_neg h, if_neg h, List.nil_append]

theorem RuleSet.diagnostics_eq_filter (rules : RuleSet) (d : Diagram) :
    rules.diagnostics d =
      (({} : RuleSet).diagnostics d).filter fun x => rules.admits x.category := by
  have hall (r : Rule) : ({} : RuleSet).admits r.category = true := by cases r <;> rfl
  rw [diagnostics_eq_flatMap, diagnostics_eq_flatMap, List.filter_flatMap]
  simp only [hall, if_true]
  congr 1
  funext r
  exact (filter_of_category (fun x hx => (Rule.category_of_mem_diagnostics hx).1) _).symm

theorem RuleSet.diagnostics_all (d : Diagram) :
    ({} : RuleSet).diagnostics d =
      Rule.positioning.diagnostics d ++ Rule.flowTypes.diagnostics d ++
        Rule.slices.diagnostics d := by
  rw [List.append_assoc]
  change _ ++ (_ ++ (Rule.slices.diagnostics d ++ [])) = _
  rw [List.append_nil]

namespace Document

theorem diagnostics_parse (rules : RuleSet) (source : String) :
    (parse rules source).diagnostics =
      (build source).diagnostics ++ rules.diagnostics (build source).diagram := rfl

theorem diagnostics_parse_eq_filter (rules : RuleSet) (source : String) :
    (parse rules source).diagnostics =
      (parse {} source).diagnostics.filter fun d => rules.admits d.category := by
  have herrors : (build source).diagnostics.filter (fun d => rules.admits d.category) =
      (build source).diagnostics := by
    rw [filter_of_category fun d hd => (category_of_mem_diagnostics_build hd).1]
    rfl
  rw [diagnostics_parse, diagnostics_parse, List.filter_append, herrors,
    ← RuleSet.diagnostics_eq_filter]

/-! ## Layers -/

theorem reported_grammar (source : String) :
    (parse {} source).reported .grammar = (build source).diagnostics := by
  rw [reported, diagnostics_parse, List.filter_append,
    filter_of_category (fun d hd => (category_of_mem_diagnostics_build hd).1) (· == .grammar),
    List.filter_eq_nil_iff.2]
  · simp
  · intro d hd
    obtain ⟨r, -, hr⟩ := RuleSet.mem_diagnostics_iff.1 hd
    rw [(Rule.category_of_mem_diagnostics hr).1]
    cases r <;> decide

theorem reported_category (source : String) (r : Rule) :
    (parse {} source).reported r.category = r.diagnostics (build source).diagram := by
  have hrule (r' : Rule) : ((r'.diagnostics (build source).diagram).filter
      fun d => d.category == r.category) =
        if r'.category == r.category then r'.diagnostics (build source).diagram else [] :=
    filter_of_category (fun d hd => (Rule.category_of_mem_diagnostics hd).1) (· == r.category)
  rw [reported, diagnostics_parse, List.filter_append, RuleSet.diagnostics_all,
    List.filter_append, List.filter_append, hrule, hrule, hrule,
    filter_of_category (fun d hd => (category_of_mem_diagnostics_build hd).1) (· == r.category)]
  cases r <;> simp [Rule.category]

theorem diagnostics_eq_layers (source : String) :
    (parse {} source).diagnostics =
      (parse {} source).reported .grammar ++ (parse {} source).reported .positioning ++
        (parse {} source).reported .flowType ++ (parse {} source).reported .composition := by
  have hpositioning : (parse {} source).reported .positioning = _ :=
    reported_category source .positioning
  have hflows : (parse {} source).reported .flowType = _ := reported_category source .flowTypes
  have hslices : (parse {} source).reported .composition = _ := reported_category source .slices
  rw [reported_grammar, hpositioning, hflows, hslices, diagnostics_parse, RuleSet.diagnostics_all]
  simp only [List.append_assoc]

/-! ## Lines inside a layer -/

theorem ascending_of_sublist {source : String} {ds : List Diagnostic}
    (h : (ds.map (·.line)).Sublist (Line.scan source)) : AscendingByLine ds :=
  pairwise_number_of_sublist h

theorem lines_flowTypes (source : String) :
    ((Rule.flowTypes.diagnostics (build source).diagram).map (·.line)).Sublist
      (Line.scan source) := by
  refine List.Sublist.trans ?_ (lines_flows source)
  rw [Rule.diagnostics, List.map_map]
  refine map_filterMap_sublist ?_ _
  intro f v hv
  obtain ⟨source, target, -, -, hviolation⟩ := FlowTyping.exists_of_flowViolation? hv
  rcases FlowTyping.of_violation? hviolation with rfl | rfl | rfl <;> rfl

theorem lines_composition (source : String) :
    ((Rule.slices.diagnostics (build source).diagram).map (·.line)).Sublist
      (Line.scan source) := by
  refine List.Sublist.trans ?_ (lines_slices source)
  rw [Rule.diagnostics, List.map_map]
  refine map_filterMap_sublist ?_ _
  intro s v hv
  obtain ⟨defect, -, rfl⟩ := Option.map_eq_some_iff.1 hv
  rfl

theorem lines_rowViolations (elements : List Element) :
    (((Positioning.rowViolations elements).map Violation.diagnostic).map (·.line)).Sublist
      (elements.map (·.origin)) := by
  rw [List.map_map]
  refine map_filterMap_sublist ?_ _
  intro e v hv
  unfold Positioning.rowViolation? at hv
  split at hv
  · rw [← Option.some.inj hv]
    rfl
  · split at hv
    · exact absurd hv (by simp)
    · rw [← Option.some.inj hv]
      rfl

/-! ## The conventions of positioning -/

theorem reportedUnder_positioning (source : String) {codes : List Code}
    (h : ∀ code ∈ codes, code.category = .positioning) :
    (parse {} source).reportedUnder codes =
      (Rule.positioning.diagnostics (build source).diagram).filter
        fun d => codes.contains d.code := by
  -- codes of positioning occur in no other layer
  have hother {ds : List Diagnostic} {c : Category} (hds : ∀ d ∈ ds, d.category = c)
      (hne : c ≠ .positioning) : (ds.filter fun d => codes.contains d.code) = [] := by
    refine filter_eq_ite (b := false) fun d hd => ?_
    rw [List.contains_eq_mem, decide_eq_false_iff_not]
    exact fun hcode => hne ((hds d hd).symm.trans (h d.code hcode))
  have herrors : ∀ d ∈ (build source).diagnostics, d.category = .grammar :=
    fun d hd => (category_of_mem_diagnostics_build hd).1
  have hrule (r : Rule) : ∀ d ∈ r.diagnostics (build source).diagram, d.category = r.category :=
    fun d hd => (Rule.category_of_mem_diagnostics hd).1
  rw [reportedUnder, diagnostics_parse, RuleSet.diagnostics_all, List.filter_append,
    List.filter_append, List.filter_append, hother herrors (by decide),
    hother (hrule .flowTypes) (by decide), hother (hrule .slices) (by decide),
    List.nil_append, List.append_nil, List.append_nil]

/-- Each convention reports under codes of its own. -/
theorem filter_codes_positioning (codes : List Code) (d : Diagram)
    (hrows : codes.contains .rowConvention = codes.contains .unrecognizedKind) :
    ((Rule.positioning.diagnostics d).filter fun x => codes.contains x.code) =
      (if codes.contains .rowConvention then
          (Positioning.rowViolations d.elements).map Violation.diagnostic else []) ++
        (if codes.contains .sharedPosition then
          (Positioning.sharedCells d.elements).map Violation.diagnostic else []) ++
        if codes.contains .branchGap then
          (Positioning.branchGaps d).map Violation.diagnostic else [] := by
  rw [Rule.diagnostics, Rule.violations, Positioning.violations, List.map_append,
    List.map_append, List.filter_append, List.filter_append]
  congr 1
  · congr 1
    · refine filter_eq_ite fun x hx => ?_
      obtain ⟨v, hv, rfl⟩ := List.mem_map.1 hx
      rcases Positioning.mem_rowViolations.1 hv with ⟨e, -, -, rfl⟩ | ⟨e, -, -, -, -, rfl⟩
      · exact hrows.symm
      · rfl
    · refine filter_eq_ite fun x hx => ?_
      obtain ⟨v, hv, rfl⟩ := List.mem_map.1 hx
      obtain ⟨e, -, -, rfl⟩ := Positioning.mem_sharedCells.1 hv
      rfl
  · refine filter_eq_ite fun x hx => ?_
    obtain ⟨v, hv, rfl⟩ := List.mem_map.1 hx
    obtain ⟨command, -, -, -, event, -, rfl⟩ := Positioning.mem_branchGaps.1 hv
    rfl

theorem reportedUnder_rows (source : String) :
    (parse {} source).reportedUnder [.rowConvention, .unrecognizedKind] =
      (Positioning.rowViolations (build source).diagram.elements).map Violation.diagnostic := by
  rw [reportedUnder_positioning source (by decide), filter_codes_positioning _ _ (by decide),
    if_pos (by decide), if_neg (by decide), if_neg (by decide), List.append_nil, List.append_nil]

theorem reportedUnder_sharedPosition (source : String) :
    (parse {} source).reportedUnder [.sharedPosition] =
      (Positioning.sharedCells (build source).diagram.elements).map Violation.diagnostic := by
  rw [reportedUnder_positioning source (by decide), filter_codes_positioning _ _ (by decide),
    if_neg (by decide), if_pos (by decide), if_neg (by decide), List.nil_append, List.append_nil]

theorem reportedUnder_branchGap (source : String) :
    (parse {} source).reportedUnder [.branchGap] =
      (Positioning.branchGaps (build source).diagram).map Violation.diagnostic := by
  rw [reportedUnder_positioning source (by decide), filter_codes_positioning _ _ (by decide),
    if_neg (by decide), if_neg (by decide), if_pos (by decide), List.nil_append, List.nil_append]

theorem reported_positioning (source : String) :
    (parse {} source).reported .positioning =
      (parse {} source).reportedUnder [.rowConvention, .unrecognizedKind] ++
        (parse {} source).reportedUnder [.sharedPosition] ++
        (parse {} source).reportedUnder [.branchGap] := by
  have hpositioning : (parse {} source).reported .positioning = _ :=
    reported_category source .positioning
  rw [hpositioning, reportedUnder_rows, reportedUnder_sharedPosition, reportedUnder_branchGap,
    Rule.diagnostics, Rule.violations, Positioning.violations, List.map_append, List.map_append]

/-- **Reports come in layers.**  Under any rules the diagram is the same, and what is reported is
what is reported under all rules, less the categories of rules that are not in force.  Errors come
first and then one rule after the other, each in the order of the lines but for positioning: there
bands of rows, with no more than one report on an element, come before shared cells, and these
before gaps in branches.  Errors are what belongs to the grammar. -/
theorem parse_layered (source : String) :
    (∀ rules : RuleSet,
      (parse rules source).diagram = (build source).diagram ∧
        (parse rules source).diagnostics =
          (parse {} source).diagnostics.filter fun d => rules.admits d.category) ∧
      (parse {} source).diagnostics =
        (parse {} source).reported .grammar ++ (parse {} source).reported .positioning ++
          (parse {} source).reported .flowType ++ (parse {} source).reported .composition ∧
      AscendingByLine ((parse {} source).reported .grammar) ∧
      AscendingByLine ((parse {} source).reported .flowType) ∧
      AscendingByLine ((parse {} source).reported .composition) ∧
      (parse {} source).reported .positioning =
        (parse {} source).reportedUnder [.rowConvention, .unrecognizedKind] ++
          (parse {} source).reportedUnder [.sharedPosition] ++
          (parse {} source).reportedUnder [.branchGap] ∧
      AscendingByLine ((parse {} source).reportedUnder [.rowConvention, .unrecognizedKind]) ∧
      (((parse {} source).reportedUnder [.rowConvention, .unrecognizedKind]).map
        (·.line)).Sublist ((build source).diagram.elements.map (·.origin)) ∧
      ∀ d : Diagnostic, d.isError = true ↔ d.category = .grammar := by
  have hflows : (parse {} source).reported .flowType = _ := reported_category source .flowTypes
  have hslices : (parse {} source).reported .composition = _ := reported_category source .slices
  refine ⟨fun rules => ⟨diagram_parse rules source, diagnostics_parse_eq_filter rules source⟩,
    diagnostics_eq_layers source, ?_, ?_, ?_, reported_positioning source, ?_, ?_,
    Diagnostic.isError_iff⟩
  · rw [reported_grammar]
    exact ascending_of_sublist (lines_diagnostics source)
  · rw [hflows]
    exact ascending_of_sublist (lines_flowTypes source)
  · rw [hslices]
    exact ascending_of_sublist (lines_composition source)
  · rw [reportedUnder_rows]
    exact ascending_of_sublist ((lines_rowViolations _).trans (lines_elements source))
  · rw [reportedUnder_rows]
    exact lines_rowViolations _

end Document

/-! ## Reports under one code -/

/-- What all rules report on a diagram under a code. -/
def Diagram.reportsUnder (d : Diagram) (code : Code) : List Diagnostic :=
  (({} : RuleSet).diagnostics d).filter fun x => x.code == code

theorem Rule.filter_code_eq_nil (r : Rule) (code : Code) (h : r.category ≠ code.category)
    (d : Diagram) : ((r.diagnostics d).filter fun x => x.code == code) = [] := by
  refine filter_eq_ite (b := false) fun x hx => ?_
  rw [beq_eq_false_iff_ne]
  rintro rfl
  exact h (category_of_mem_diagnostics hx).1.symm

namespace Diagram

theorem reportsUnder_of_positioning {code : Code} (h : code.category = .positioning)
    (d : Diagram) :
    d.reportsUnder code =
      (Rule.positioning.diagnostics d).filter fun x => [code].contains x.code := by
  have hcode (x : Diagnostic) : [code].contains x.code = (x.code == code) := by
    rw [List.contains_cons, List.contains_nil, Bool.or_false]
  have hflows := Rule.filter_code_eq_nil .flowTypes code (by rw [h]; decide) d
  have hslices := Rule.filter_code_eq_nil .slices code (by rw [h]; decide) d
  simp only [hcode]
  rw [reportsUnder, RuleSet.diagnostics_all, List.filter_append, List.filter_append, hflows,
    hslices, List.append_nil, List.append_nil]

theorem reportsUnder_sharedPosition (d : Diagram) :
    d.reportsUnder .sharedPosition =
      (Positioning.sharedCells d.elements).map Violation.diagnostic := by
  rw [reportsUnder_of_positioning rfl, Document.filter_codes_positioning _ _ (by decide),
    if_neg (by decide), if_pos (by decide), if_neg (by decide), List.nil_append, List.append_nil]

theorem reportsUnder_branchGap (d : Diagram) :
    d.reportsUnder .branchGap = (Positioning.branchGaps d).map Violation.diagnostic := by
  rw [reportsUnder_of_positioning rfl, Document.filter_codes_positioning _ _ (by decide),
    if_neg (by decide), if_neg (by decide), if_pos (by decide), List.nil_append, List.nil_append]

theorem reportsUnder_incompleteSlice (d : Diagram) :
    d.reportsUnder .incompleteSlice = (Composition.violations d).map Violation.diagnostic := by
  have hrows := Rule.filter_code_eq_nil .positioning .incompleteSlice (by decide) d
  have hflows := Rule.filter_code_eq_nil .flowTypes .incompleteSlice (by decide) d
  have hslices : ((Rule.slices.diagnostics d).filter fun x => x.code == .incompleteSlice) =
      Rule.slices.diagnostics d := by
    refine filter_eq_ite (b := true) fun x hx => ?_
    obtain ⟨v, hv, rfl⟩ := List.mem_map.1 hx
    obtain ⟨s, -, defect, -, rfl⟩ := Composition.mem_violations.1 hv
    rfl
  rw [reportsUnder, RuleSet.diagnostics_all, List.filter_append, List.filter_append, hrows,
    hflows, hslices, List.nil_append, List.nil_append, Rule.diagnostics, Rule.violations]

end Diagram

end EventModel
