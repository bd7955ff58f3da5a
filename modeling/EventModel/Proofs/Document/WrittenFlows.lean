import EventModel.Proofs.Document.Origins
import EventModel.Proofs.Document.RoundTrip
import EventModel.Proofs.Source.Classification

/-!
# Flows in writing

The payload of a flow is read if it is two ids in writing, and is refused otherwise.  So a flow that
is written on a line of a document, with any white space around it, is read back from there, and
nothing is reported on its line (`flows_read_as_written`).
-/

namespace EventModel

open Declaration (WritesEndpoints)

/-! ## Payloads of flows -/

/-- The ids are determined by the text in which they are written. -/
theorem Declaration.WritesEndpoints.unique {payload : List Char}
    {source target source' target' : ElementId} (h : WritesEndpoints payload source target)
    (h' : WritesEndpoints payload source' target') : source = source' ∧ target = target' := by
  rw [← endpoints?_eq_some_iff] at h h'
  exact Prod.mk.inj (Option.some.inj (h.symm.trans h'))

namespace Statement

variable {s : Statement} {direction : FlowDirection}

theorem declaration_of_flow (h : s.directive = some direction.directive) :
    s.declaration = Declaration.readFlow direction s.payload := by
  rw [declaration, h]
  cases direction <;> rfl

theorem declaration_flow_eq_ok_iff (h : s.directive = some direction.directive)
    {d : Declaration} :
    s.declaration = .ok d ↔
      ∃ source target, d = .flow direction source target ∧
        WritesEndpoints s.payload source target := by
  simp only [← Declaration.endpoints?_eq_some_iff]
  rw [declaration_of_flow h, Declaration.readFlow]
  cases Declaration.endpoints? s.payload with
  | none => simp
  | some ids => simp [Prod.ext_iff, eq_comm]

theorem declaration_flow_eq_error (h : s.directive = some direction.directive)
    (hpayload : ∀ source target, ¬WritesEndpoints s.payload source target) :
    s.declaration = .error (.malformedFlow direction) := by
  rw [declaration_of_flow h, Declaration.readFlow]
  have hnone : Declaration.endpoints? s.payload = none := by
    rw [Option.eq_none_iff_forall_ne_some]
    exact fun ids hids => hpayload ids.1 ids.2 (Declaration.endpoints?_eq_some_iff.1 hids)
  rw [hnone]

end Statement

/-! ## Lines with a flow -/

namespace Flow

/-- The text is a line on which the flow is written, with any white space around it. -/
def IsWrittenOn (f : Flow) (text : List Char) : Prop := Text.Padded (toString f).toList text

theorem isScanned (f : Flow) : IsScanned (toString f) := by
  rw [← toString_declaration]
  exact Declaration.isScanned_toString trivial

theorem IsWrittenOn.trim_eq {f : Flow} {text : List Char} (h : f.IsWrittenOn text) :
    Text.trim text = (toString f).toList :=
  Text.Padded.trim_eq h f.isScanned.2.1

theorem IsWrittenOn.isLine {f : Flow} {text : List Char} (h : f.IsWrittenOn text) (number : Nat) :
    Statement.isLine (text, number) = true := by
  rw [Statement.isLine_eq, h.trim_eq]
  exact f.isScanned.2.2

theorem IsWrittenOn.notMem {f : Flow} {text : List Char} (h : f.IsWrittenOn text) :
    '\n' ∉ text :=
  Text.Padded.notMem h (Or.inr rfl) f.isScanned.1

/-- A statement that is made of the line of a flow declares it. -/
theorem IsWrittenOn.declaration {f : Flow} {text : List Char} (h : f.IsWrittenOn text)
    {source : String} {s : Statement} {number : Nat} (hs : s ∈ Statement.scan source)
    (hmade : Statement.IsMadeOf (text, number) s) :
    s.directive = some f.direction.directive ∧ s.declaration = .ok f.declaration := by
  have htext : s.line.text = toString f.declaration := by
    rw [toString_declaration, ← String.toList_inj, hmade.text, h.trim_eq]
  have hdeclaration := Statement.declaration_ofLine (d := f.declaration) trivial htext
  rw [← (Statement.line_mem_scan hs).2] at hdeclaration
  exact ⟨Statement.directive_of_declaration hdeclaration, hdeclaration⟩

end Flow

namespace Document

/-- A document of one flow. -/
theorem ofStatements_flow {s : Statement} {f : Flow} (h : s.declaration = .ok f.declaration) :
    ofStatements [s] = ⟨{ flows := [{ f with origin := s.line }] }, []⟩ := by
  rw [ofStatements, List.foldl_cons, List.foldl_nil,
    Draft.closeBlock_add h f.directive_ne_text]
  rfl

/-- What stands on the line of a flow adds it, and nothing is reported there. -/
theorem flow_on_line {source : String} {s : Statement} {f : Flow} (hs : s ∈ Statement.scan source)
    (h : s.declaration = .ok f.declaration) :
    { f with origin := s.line } ∈ (build source).diagram.flows ∧
      ∀ d ∈ (build source).diagnostics, d.line ≠ s.line := by
  constructor
  · rw [flows_build]
    refine List.mem_filterMap.2 ⟨s, hs, ?_⟩
    rw [Statement.flow?, h]
    rfl
  · obtain ⟨o, ho, rfl⟩ := Occurrence.exists_of_mem hs
    have hdirective := Statement.directive_of_declaration h
    have hnone : o.diagnostic? = none := by
      rw [Occurrence.diagnostic?, Occurrence.fault?, hdirective, h]
      rfl
    have hreports := diagnostics_on_line ho
    rw [hnone, Option.toList_none, List.filter_eq_nil_iff] at hreports
    simpa using hreports

/-- **A flow is read from its written form and from nothing else.**  What follows the keyword and
the colon must be two ids with the word `to` between them; it then determines these ids, and every
other text is refused under one code.  A flow that is written on a line of a document, with any
white space around it, is read from this line, and nothing is reported there; if there is no other
line, the document is this flow. -/
theorem flows_read_as_written :
    (∀ (s : Statement) (direction : FlowDirection), s.directive = some direction.directive →
      (∀ d, s.declaration = .ok d ↔
        ∃ source target, d = .flow direction source target ∧
          WritesEndpoints s.payload source target) ∧
      (∀ source target source' target', WritesEndpoints s.payload source target →
        WritesEndpoints s.payload source' target' → source = source' ∧ target = target') ∧
      ((∀ source target, ¬WritesEndpoints s.payload source target) →
        (∃ fault, s.declaration = .error fault ∧ (fault.diagnostic s).code.text = "E011") ∧
        ∀ source, s ∈ Statement.scan source →
          ((build source).diagnostics.filter (·.line = s.line)).map (·.code.text) = ["E011"])) ∧
      ∀ (f : Flow) (text : List Char), f.IsWrittenOn text →
        (∀ source number, (text, number) ∈ (source.toList.splitOn '\n').zipIdx 1 →
          ∃ s ∈ Statement.scan source, s.line.number = number ∧
            s.directive = some f.direction.directive ∧
            s.declaration = .ok (.flow f.direction f.source f.target) ∧
            { f with origin := s.line } ∈ (build source).diagram.flows ∧
            ∀ d ∈ (build source).diagnostics, d.line ≠ s.line) ∧
        ∃ line, line.text = toString f ∧
          build (String.ofList text) = ⟨{ flows := [{ f with origin := line }] }, []⟩ := by
  refine ⟨fun s direction h => ⟨fun d => Statement.declaration_flow_eq_ok_iff h,
    fun _ _ _ _ => WritesEndpoints.unique, fun hpayload => ?_⟩, fun f text htext => ⟨?_, ?_⟩⟩
  · have herror := Statement.declaration_flow_eq_error h hpayload
    refine ⟨⟨_, herror, rfl⟩, fun source hs => ?_⟩
    rw [(refused_on_line hs h herror).1]
    rfl
  · intro source number hpiece
    obtain ⟨s, hs, hmade⟩ := Statement.exists_isMadeOf hpiece (htext.isLine number)
    obtain ⟨hdirective, hdeclaration⟩ := htext.declaration hs hmade
    exact ⟨s, hs, hmade.number, hdirective, hdeclaration, flow_on_line hs hdeclaration⟩
  · obtain ⟨s, hscan, hmade⟩ := Statement.scan_single htext.notMem (htext.isLine 1)
    have hs : s ∈ Statement.scan (String.ofList text) := by
      rw [hscan]
      exact List.mem_singleton_self s
    refine ⟨s.line, ?_, ?_⟩
    · rw [← String.toList_inj, hmade.text, htext.trim_eq]
    · rw [build, hscan, ofStatements_flow (htext.declaration hs hmade).2]

/-- White space of three bytes around a line, tabs in a payload, and ids at their limits. -/
theorem flows_read_as_written_padded :
    Statement.declaration ⟨⟨1, "", ⟨0, 0, by decide⟩⟩, some .flow, "7\tto  4294967295 ".toList⟩ =
        .ok (.flow .forward 7 4294967295) ∧
      ∃ line, line.text = "BACK_FLOW: 4294967295 to 0" ∧
        build "\u3000BACK_FLOW: 4294967295 to 0\t" =
          ⟨{ flows := [⟨4294967295, 0, .backward, line⟩] }, []⟩ := by
  obtain ⟨hread, hwritten⟩ := flows_read_as_written
  constructor
  · obtain ⟨haccepted, -, -⟩ := hread
      ⟨⟨1, "", ⟨0, 0, by decide⟩⟩, some .flow, "7\tto  4294967295 ".toList⟩ .forward rfl
    refine (haccepted _).2 ⟨7, 4294967295, rfl, [], ['\t'], [' ', ' '], [' '], ?_⟩
    decide +kernel
  · have hline : Flow.IsWrittenOn ⟨4294967295, 0, .backward, ⟨1, "", ⟨0, 0, by decide⟩⟩⟩
        "\u3000BACK_FLOW: 4294967295 to 0\t".toList :=
      ⟨['\u3000'], ['\t'], by decide, by decide, by decide +kernel⟩
    obtain ⟨-, line, htext, hbuild⟩ := hwritten _ _ hline
    rw [String.ofList_toList] at hbuild
    exact ⟨line, htext.trans (by decide +kernel), hbuild⟩

end Document

end EventModel
