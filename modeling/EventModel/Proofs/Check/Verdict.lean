import EventModel.Check.Report
import EventModel.Proofs.Connection.Agreement
import EventModel.Proofs.Diagnostic.Recording
import EventModel.Proofs.Rule.Ordering

/-!
# The verdict of a check

Reading and the rules report first, and resolving adds what no rule has reported.  The merge
goes by code and line number, and still it drops all of resolving's report when the flow rule
is in force and none of it otherwise (`entries_log`).  So the rules have a say in the verdict
only if warnings are denied (`check_eq_verdict`).
-/

namespace EventModel

/-! ## Merging reports -/

theorem Diagnostic.sameProblem_of_category_ne {d e : Diagnostic} (h : d.category ≠ e.category) :
    d.sameProblem e = false := by
  rw [sameProblem, Bool.and_eq_false_iff]
  left
  rw [beq_eq_false_iff_ne]
  exact fun hcode => h (by rw [category, category, hcode])

theorem Diagnostic.sameProblem_of_number_lt {d e : Diagnostic}
    (h : d.line.number < e.line.number) : d.sameProblem e = false := by
  rw [sameProblem, Bool.and_eq_false_iff]
  right
  rw [beq_eq_false_iff_ne]
  omega

namespace Log

/-- Nothing is recorded twice. -/
theorem foldl_recordNew_of_known {log : Log} {ds : List Diagnostic}
    (h : ∀ d ∈ ds, d ∈ log.entries) : ds.foldl recordNew log = log := by
  induction ds with
  | nil => rfl
  | cons d ds ih =>
      have hknown : log.entries.any (·.sameProblem d) = true :=
        List.any_eq_true.2 ⟨d, h d List.mem_cons_self, d.sameProblem_self⟩
      rw [List.foldl_cons, recordNew, if_pos hknown]
      exact ih fun e he => h e (List.mem_cons_of_mem d he)

/-- Different problems are all recorded. -/
theorem entries_foldl_recordNew_of_new {log : Log} {ds : List Diagnostic}
    (hlog : ∀ d ∈ ds, ∀ e ∈ log.entries, e.sameProblem d = false)
    (hds : ds.Pairwise fun d e => d.sameProblem e = false) :
    (ds.foldl recordNew log).entries = log.entries ++ ds := by
  induction ds generalizing log with
  | nil => rw [List.foldl_nil, List.append_nil]
  | cons d ds ih =>
      rw [List.pairwise_cons] at hds
      have hnew : ¬log.entries.any (·.sameProblem d) = true := by
        rw [Bool.not_eq_true, List.any_eq_false]
        intro e he
        rw [Bool.not_eq_true]
        exact hlog d List.mem_cons_self e he
      rw [List.foldl_cons, recordNew, if_neg hnew, ih, entries_record, List.append_assoc,
        List.singleton_append]
      · intro e he f hf
        rw [entries_record, List.mem_append, List.mem_singleton] at hf
        rcases hf with hf | rfl
        · exact hlog e (List.mem_cons_of_mem d he) f hf
        · exact hds.1 e he
      · exact hds.2

end Log

/-! ## What resolving reports -/

theorem Diagram.mem_flowTypes_of_mem_rejections {diagram : Diagram} {d : Diagnostic}
    (h : d ∈ diagram.rejections) : d ∈ Rule.flowTypes.diagnostics diagram := by
  rw [rejections_eq_filter] at h
  exact List.mem_of_mem_filter h

/-- Flows of a document stand on different lines, so what is reported on them does. -/
theorem Document.pairwise_number_rejections (source : String) :
    (build source).diagram.rejections.Pairwise fun d e => d.line.number < e.line.number := by
  rw [Diagram.rejections_eq_filter]
  exact (ascending_of_sublist (lines_flowTypes source)).sublist List.filter_sublist

/-! ## The verdict -/

namespace Settings

/-- The warnings of a check: what the rules in force report, and what resolving reports unless
the rule on flows does. -/
def warnings (settings : Settings) (source : String) : List Diagnostic :=
  let diagram := (Document.build source).diagram
  if settings.rules.flowTypes then settings.rules.diagnostics diagram
  else settings.rules.diagnostics diagram ++ diagram.rejections

/-- All that a check reports: the diagnostics of the parsed document, and those of resolving
it unless the rule on flows is in force. -/
def findings (settings : Settings) (source : String) : List Diagnostic :=
  let document := Document.parse settings.rules source
  if settings.rules.flowTypes then document.diagnostics
  else document.diagnostics ++ document.diagram.rejections

theorem findings_eq (settings : Settings) (source : String) :
    settings.findings source =
      (Document.build source).diagnostics ++ settings.warnings source := by
  rw [findings, warnings]
  split
  · rfl
  · exact List.append_assoc _ _ _

/-- Resolving, too, reports nothing but what a rule would. -/
theorem exists_rule_of_mem_warnings {settings : Settings} {source : String} {d : Diagnostic}
    (h : d ∈ settings.warnings source) :
    ∃ r : Rule, d ∈ r.diagnostics (Document.build source).diagram := by
  rw [warnings] at h
  have hrules (hd : d ∈ settings.rules.diagnostics (Document.build source).diagram) :
      ∃ r : Rule, d ∈ r.diagnostics (Document.build source).diagram := by
    obtain ⟨r, -, hr⟩ := RuleSet.mem_diagnostics_iff.1 hd
    exact ⟨r, hr⟩
  split at h
  · exact hrules h
  · rcases List.mem_append.1 h with h | h
    · exact hrules h
    · exact ⟨.flowTypes, Diagram.mem_flowTypes_of_mem_rejections h⟩

theorem isError_of_mem_warnings {settings : Settings} {source : String} {d : Diagnostic}
    (h : d ∈ settings.warnings source) : d.isError = false := by
  obtain ⟨r, hr⟩ := exists_rule_of_mem_warnings h
  exact (Rule.category_of_mem_diagnostics hr).2

/-- The merge drops what the rule on flows has reported and nothing else. -/
theorem entries_log (settings : Settings) (source : String) :
    (settings.log source).entries = settings.findings source := by
  rw [log, findings]
  simp only [Document.diagram_parse]
  split
  · -- the rule on flows has reported every rejection already
    rename_i hflow
    rw [Log.foldl_recordNew_of_known]
    · rw [Log.entries_recordAll]
      rfl
    · intro d hd
      have hrule := Diagram.mem_flowTypes_of_mem_rejections hd
      have hrules := RuleSet.mem_diagnostics_iff.2 ⟨Rule.flowTypes, hflow, hrule⟩
      rw [Log.entries_recordAll, List.nil_append]
      exact List.mem_append_right _ hrules
  · -- categories keep rejections apart from all other reports, and lines from one another
    rename_i hflow
    rw [Log.entries_foldl_recordNew_of_new, Log.entries_recordAll]
    · rfl
    · intro d hd e he
      apply Diagnostic.sameProblem_of_category_ne
      rw [(Rule.category_of_mem_diagnostics (Diagram.mem_flowTypes_of_mem_rejections hd)).1]
      rw [Log.entries_recordAll, List.nil_append] at he
      rcases List.mem_append.1 he with he | he
      · rw [(Document.category_of_mem_diagnostics_build he).1]
        decide
      · obtain ⟨r, hr, hmem⟩ := RuleSet.mem_diagnostics_iff.1 he
        rw [(Rule.category_of_mem_diagnostics hmem).1]
        cases r with
        | positioning => decide
        | flowTypes => exact absurd hr hflow
        | slices => decide
    · exact (Document.pairwise_number_rejections source).imp
        Diagnostic.sameProblem_of_number_lt

theorem notesErrors_log (settings : Settings) (source : String) :
    (settings.log source).NotesErrors :=
  (Log.NotesErrors.empty.recordAll _).foldl_recordNew _

theorem hasErrors_log (settings : Settings) (source : String) :
    (settings.log source).hasErrors = true ↔ (Document.build source).diagnostics ≠ [] := by
  rw [notesErrors_log, entries_log, findings_eq, List.any_eq_true]
  constructor
  · rintro ⟨d, hd, herror⟩ hnil
    rw [hnil, List.nil_append] at hd
    rw [isError_of_mem_warnings hd] at herror
    exact absurd herror (by simp)
  · intro hne
    obtain ⟨d, hd⟩ := List.exists_mem_of_ne_nil _ hne
    exact ⟨d, List.mem_append_left _ hd, (Document.category_of_mem_diagnostics_build hd).2⟩

theorem check_eq (settings : Settings) (source : String) :
    settings.check source =
      if (Document.build source).diagnostics ≠ [] ∨
          (settings.denyWarnings = true ∧ settings.findings source ≠ []) then
        .error (.diagnostics (settings.findings source) source)
      else
        .ok ⟨(Document.build source).diagram, (Document.build source).diagram.connections,
          settings.findings source⟩ := by
  rw [check, Log.accept]
  by_cases herrors : (Document.build source).diagnostics ≠ []
  · rw [if_pos ((hasErrors_log settings source).2 herrors), if_pos (Or.inl herrors),
      entries_log]
  · rw [if_neg (fun h => herrors ((hasErrors_log settings source).1 h)), entries_log]
    by_cases hdeny : settings.denyWarnings = true ∧ settings.findings source ≠ []
    · rw [if_pos (Or.inr hdeny)]
      simp [hdeny.1, hdeny.2]
    · rw [if_neg (not_or.2 ⟨herrors, hdeny⟩)]
      have hpass : ¬(settings.denyWarnings && !(settings.findings source).isEmpty) = true := by
        simpa using hdeny
      simp only [if_neg hpass, Document.diagram_parse]

/-- If warnings pass, what a check lets pass and draws is the same under all rules. -/
theorem toOption_check_eq (rules rules' : RuleSet) (source : String) :
    ((⟨rules, false⟩ : Settings).check source).toOption.map
        (fun report => (report.diagram, report.connections)) =
      ((⟨rules', false⟩ : Settings).check source).toOption.map
        (fun report => (report.diagram, report.connections)) := by
  rw [check_eq, check_eq]
  by_cases herrors : (Document.build source).diagnostics ≠ []
  · rw [if_pos (Or.inl herrors), if_pos (Or.inl herrors)]
    rfl
  · rw [if_neg (by simpa using herrors), if_neg (by simpa using herrors)]
    rfl

/-- Denying warnings refuses what has something to report, and changes nothing else. -/
theorem check_denying_iff {rules : RuleSet} {source : String} {report : Report} :
    (⟨rules, true⟩ : Settings).check source = .ok report ↔
      (⟨rules, false⟩ : Settings).check source = .ok report ∧ report.diagnostics = [] := by
  have hsame : (⟨rules, true⟩ : Settings).findings source =
      (⟨rules, false⟩ : Settings).findings source := rfl
  rw [check_eq, check_eq, hsame]
  by_cases herrors : (Document.build source).diagnostics ≠ []
  · rw [if_pos (Or.inl herrors), if_pos (Or.inl herrors)]
    constructor
    · intro h
      exact absurd h (by simp)
    · rintro ⟨h, -⟩
      exact absurd h (by simp)
  · have hpass : ¬((Document.build source).diagnostics ≠ [] ∨
        (false = true ∧ (⟨rules, false⟩ : Settings).findings source ≠ [])) := by
      simpa using herrors
    rw [if_neg hpass]
    by_cases hclean : (⟨rules, false⟩ : Settings).findings source = []
    · rw [if_neg (by simp [hclean, not_not.1 herrors]), hclean]
      constructor
      · intro h
        refine ⟨h, ?_⟩
        rw [← Except.ok.inj h]
      · exact And.left
    · rw [if_pos (Or.inr ⟨rfl, hclean⟩)]
      constructor
      · intro h
        exact absurd h (by simp)
      · rintro ⟨h, hempty⟩
        rw [← Except.ok.inj h] at hempty
        exact absurd hempty hclean

/-- **The verdict of a check.**  A check fails on a faulty document, and on any finding if
warnings are denied; either way it shows all findings, the errors first.  Which rules are in
force matters to the verdict and to what is drawn only if warnings are denied, and denying them
only refuses what has something to report. -/
theorem check_eq_verdict (source : String) :
    (∀ settings : Settings,
      settings.check source =
        if (Document.build source).diagnostics ≠ [] ∨
            (settings.denyWarnings = true ∧ settings.findings source ≠ []) then
          .error (.diagnostics (settings.findings source) source)
        else
          .ok ⟨(Document.build source).diagram, (Document.build source).diagram.connections,
            settings.findings source⟩) ∧
    (∀ settings : Settings, ∃ warnings,
      settings.findings source = (Document.build source).diagnostics ++ warnings ∧
        (∀ d ∈ (Document.build source).diagnostics, d.isError = true) ∧
        ∀ d ∈ warnings, d.isError = false) ∧
    (∀ rules rules' : RuleSet,
      ((⟨rules, false⟩ : Settings).check source).toOption.map
          (fun report => (report.diagram, report.connections)) =
        ((⟨rules', false⟩ : Settings).check source).toOption.map
          (fun report => (report.diagram, report.connections))) ∧
    ∀ (rules : RuleSet) (report : Report),
      (⟨rules, true⟩ : Settings).check source = .ok report ↔
        (⟨rules, false⟩ : Settings).check source = .ok report ∧ report.diagnostics = [] := by
  refine ⟨fun settings => check_eq settings source, ?_,
    fun rules rules' => toOption_check_eq rules rules' source,
    fun rules report => check_denying_iff⟩
  intro settings
  refine ⟨settings.warnings source, findings_eq settings source, ?_, ?_⟩
  · exact fun d hd => (Document.category_of_mem_diagnostics_build hd).2
  · exact fun d hd => isError_of_mem_warnings hd

end Settings

end EventModel
