import EventModel.Proofs.Document.Origins

/-!
# Which note belongs to which element

While statements are added to a draft, a block of notes is opened, grows, and is attached when
it is closed.  What comes out in the end can be said block by block: an element has the note of
the last block with any text among those that open after its line and before the line of the
next accepted element (`note_build`).
-/

namespace EventModel

/-! ## Notes by line -/

/-- An element with the last of the notes that are attached to its line. -/
def Element.annotated (notes : Line → List Note) (e : Element) : Element :=
  { e with note := (notes e.origin).getLast? }

namespace Element

theorem origin_annotated (notes : Line → List Note) (e : Element) :
    (e.annotated notes).origin = e.origin := rfl

theorem note_annotated (notes : Line → List Note) (e : Element) :
    (e.annotated notes).note = (notes e.origin).getLast? := rfl

theorem map_origin_annotated (notes : Line → List Note) (es : List Element) :
    (es.map (annotated notes)).map (·.origin) = es.map (·.origin) := by
  rw [List.map_map]
  exact List.map_congr_left fun e _ => e.origin_annotated notes

end Element

namespace Draft

/-- The note that the open block turns out to be when more statements follow. -/
def pendingNotes (before : List Statement) (d : Draft) (rest : List Statement) (line : Line) :
    List Note :=
  match d.block with
  | none => []
  | some lines =>
    if (acceptedElements before).getLast?.map (·.origin) = some line then
      (Note.ofLines? (lines ++ (rest.takeWhile (·.directive.isNone)).map (·.line.text))).toList
    else []

theorem pendingNotes_of_closed {before : List Statement} {d : Draft} {s : Statement}
    (rest : List Statement) (hs : d.block = none ∨ s.directive.isSome = true) :
    pendingNotes before d (s :: rest) = pendingNotes before d [] := by
  funext line
  unfold pendingNotes
  rcases hs with hblock | hdirective
  · rw [hblock]
  · have hstop : (s :: rest).takeWhile (·.directive.isNone) = [] := by
      rw [List.takeWhile_cons_of_neg]
      simp [Option.isSome_iff_ne_none.1 hdirective]
    rw [hstop, List.takeWhile_nil]

theorem pendingNotes_of_notMem {before : List Statement} (d : Draft) (rest : List Statement)
    {line : Line} (h : line ∉ (acceptedElements before).map (·.origin)) :
    pendingNotes before d rest line = [] := by
  have howner : (acceptedElements before).getLast?.map (·.origin) ≠ some line := by
    intro heq
    obtain ⟨e, he, horigin⟩ := Option.map_eq_some_iff.1 heq
    exact h (List.mem_map.2 ⟨e, List.mem_of_getLast? he, horigin⟩)
  unfold pendingNotes
  split
  · rfl
  · rw [if_neg howner]

/-- Closing the block attaches what is pending to the element accepted last. -/
theorem closedElements_eq {d : Draft} {before : List Statement} {notes : Line → List Note}
    (helements : d.diagram.elements = (acceptedElements before).map (Element.annotated notes))
    (hlines : ((acceptedElements before).map (·.origin)).Nodup) :
    d.closedElements = (acceptedElements before).map
      (Element.annotated fun line => notes line ++ pendingNotes before d [] line) := by
  rw [closedElements, helements]
  cases hblock : d.block with
  | none => simp [pendingNotes, hblock]
  | some lines =>
      cases hnote : Note.ofLines? lines with
      | none => simp [pendingNotes, hblock, hnote]
      | some note =>
          simp only [Option.bind_some, hnote]
          rcases List.eq_nil_or_concat (acceptedElements before) with hnil | ⟨es, e, hconcat⟩
          · rw [hnil]
            rfl
          · rw [List.concat_eq_append] at hconcat
            rw [hconcat, List.map_append, List.nodup_append] at hlines
            have hlast : (acceptedElements before).getLast?.map (·.origin) = some e.origin := by
              rw [hconcat, List.getLast?_concat, Option.map_some]
            rw [hconcat, List.map_append, List.map_append, List.map_singleton,
              Element.annotateLast_concat]
            congr 1
            · apply List.map_congr_left
              intro f hf
              have hne : e.origin ≠ f.origin := fun heq =>
                hlines.2.2 f.origin (List.mem_map_of_mem hf) e.origin (by simp) heq.symm
              simp [Element.annotated, pendingNotes, hblock, hlast, hne]
            · simp [Element.annotated, pendingNotes, hblock, hlast, hnote]

/-! ## One statement more -/

theorem element?_of_directive_none {s : Statement} (hs : s.directive = none) :
    s.element? = none := by
  rw [Statement.element?, Statement.declaration_of_directive_none hs]

theorem acceptedElements_concat_unknown (before : List Statement) {s : Statement}
    (hs : s.directive = none) : acceptedElements (before ++ [s]) = acceptedElements before := by
  rw [acceptedElements_concat, element?_of_directive_none hs]
  simp

/-- A line that goes to the open block leaves what is pending as it is. -/
theorem pendingNotes_add_unknown {d : Draft} {before : List Statement} {s : Statement}
    {lines : List String} (rest : List Statement) (hblock : d.block = some lines)
    (hs : s.directive = none) :
    pendingNotes (before ++ [s]) (d.add s) rest = pendingNotes before d (s :: rest) := by
  have hgo : (s :: rest).takeWhile (·.directive.isNone) =
      s :: rest.takeWhile (·.directive.isNone) :=
    List.takeWhile_cons_of_pos (by simp [hs])
  funext line
  rw [add_of_block hblock hs, pendingNotes, pendingNotes, hblock,
    acceptedElements_concat_unknown before hs, hgo]
  simp

/-- Accepting a statement appends the element that it declares, if that is accepted. -/
theorem elements_add_accepted {d : Draft} {before : List Statement} {s : Statement}
    {notes : Line → List Note} (h : HasRead d before)
    (helements : d.diagram.elements = (acceptedElements before).map (Element.annotated notes))
    (hlines : ((before ++ [s]).map (·.line)).Nodup)
    (hnotes : ∀ line, line ∉ (acceptedElements before).map (·.origin) → notes line = [])
    (hs : d.block = none ∨ s.directive.isSome = true) :
    (d.add s).diagram.elements = (acceptedElements (before ++ [s])).map
      (Element.annotated fun line => notes line ++ pendingNotes before d [] line) := by
  rw [List.map_append, List.nodup_append] at hlines
  have hfresh : s.line ∉ (acceptedElements before).map (·.origin) := fun hmem =>
    hlines.2.2 s.line (line_mem_of_origin_mem hmem) s.line (by simp) rfl
  rw [add_of_closed hs, diagram_accept, acceptedElements_concat, List.map_append]
  simp only [h.isNone_element?]
  rw [closeBlock_eq]
  congr 1
  · exact closedElements_eq helements (nodup_origin_acceptedElements hlines.1)
  · cases he : s.element? with
    | none => simp
    | some e =>
        have hnone : Element.annotated
            (fun line => notes line ++ pendingNotes before d [] line) e = e := by
          rw [← (Statement.of_element? he).1] at hfresh
          rw [Element.annotated, hnotes e.origin hfresh, pendingNotes_of_notMem d [] hfresh]
          exact (Statement.of_element? he).2
        rw [Option.filter_some]
        split
        · simp [hnone]
        · simp

/-- The block that a statement opens is pending until it is closed. -/
theorem pendingNotes_add_accepted {d : Draft} {before : List Statement} {s : Statement}
    (rest : List Statement) (hs : d.block = none ∨ s.directive.isSome = true) (line : Line) :
    pendingNotes (before ++ [s]) (d.add s) rest line =
      Occurrence.notesFor line [⟨before, s, rest⟩] := by
  have hblock : d.closeBlock.block = none := by rw [closeBlock_eq]
  rw [pendingNotes, add_of_closed hs, block_accept hblock]
  by_cases htext : s.directive = some .text
  · have hnone : s.element? = none := by
      rw [Statement.element?, declaration_of_text htext]
    have haccepted : acceptedElements (before ++ [s]) = acceptedElements before := by
      rw [acceptedElements_concat, hnone]
      simp
    rw [if_pos htext, haccepted]
    by_cases howner : (acceptedElements before).getLast?.map (·.origin) = some line
    · simp only [if_pos howner]
      cases hnote : Occurrence.note? ⟨before, s, rest⟩ <;>
        simp_all [Occurrence.notesFor, Occurrence.isText, Occurrence.owner?, Occurrence.note?,
          Occurrence.block, Occurrence.continuation]
    · simp [Occurrence.notesFor, Occurrence.isText, Occurrence.owner?, howner]
  · simp [Occurrence.notesFor, Occurrence.isText, htext]

/-! ## All statements -/

theorem notesFor_cons (line : Line) (o : Occurrence) (os : List Occurrence) :
    Occurrence.notesFor line (o :: os) =
      Occurrence.notesFor line [o] ++ Occurrence.notesFor line os := by
  rw [Occurrence.notesFor, ← List.singleton_append, List.filter_append, List.filterMap_append]
  rfl

/-- Adding statements attaches, to whatever was attached before, the notes of the blocks that
open among these statements. -/
theorem closedElements_foldl_add {d : Draft} {before : List Statement}
    {notes : Line → List Note} (rest : List Statement) (h : HasRead d before)
    (helements : d.diagram.elements = (acceptedElements before).map (Element.annotated notes))
    (hlines : ((before ++ rest).map (·.line)).Nodup)
    (hnotes : ∀ line, line ∉ (acceptedElements before).map (·.origin) → notes line = []) :
    (rest.foldl add d).closedElements = (acceptedElements (before ++ rest)).map
      (Element.annotated fun line => notes line ++ pendingNotes before d rest line ++
        Occurrence.notesFor line (Occurrence.listFrom before rest)) := by
  induction rest generalizing d before notes with
  | nil =>
      rw [List.append_nil] at hlines
      rw [List.foldl_nil, List.append_nil,
        closedElements_eq helements (nodup_origin_acceptedElements hlines)]
      simp [Occurrence.listFrom, Occurrence.notesFor]
  | cons s rest ih =>
      have hnext : ((before ++ [s] ++ rest).map (·.line)).Nodup := by
        rw [← List.append_cons]
        exact hlines
      have hcons (line : Line) := notesFor_cons line ⟨before, s, rest⟩
        (Occurrence.listFrom (before ++ [s]) rest)
      rw [List.foldl_cons, List.append_cons, Occurrence.listFrom]
      simp only [hcons]
      rcases closed_or_block d s with hs | ⟨lines, hblock, hs⟩
      · -- the block is closed: what was pending is attached from now on
        have hprefix : ((before ++ [s]).map (·.line)).Nodup := by
          rw [List.map_append] at hnext
          exact (List.nodup_append.1 hnext).1
        rw [ih (h.add s) (elements_add_accepted h helements hprefix hnotes hs) hnext]
        · simp only [pendingNotes_add_accepted rest hs, pendingNotes_of_closed rest hs,
            List.append_assoc]
        · intro line hline
          have hbefore : line ∉ (acceptedElements before).map (·.origin) := by
            intro hmem
            rw [acceptedElements_concat, List.map_append] at hline
            exact hline (List.mem_append_left _ hmem)
          rw [hnotes line hbefore, pendingNotes_of_notMem d [] hbefore, List.nil_append]
      · -- the line joins the block, and what is pending already counts it
        have hsame : acceptedElements (before ++ [s]) = acceptedElements before :=
          acceptedElements_concat_unknown before hs
        have hadd : (d.add s).diagram.elements =
            (acceptedElements (before ++ [s])).map (Element.annotated notes) := by
          rw [add_of_block hblock hs, hsame]
          exact helements
        have hfree (line : Line) : Occurrence.notesFor line [⟨before, s, rest⟩] = [] := by
          simp [Occurrence.notesFor, Occurrence.isText, hs]
        rw [ih (h.add s) hadd hnext (by rw [hsame]; exact hnotes)]
        simp only [pendingNotes_add_unknown rest hblock hs, hfree, List.nil_append]

end Draft

/-! ## Blocks and their lines -/

/-- Statements after which an unknown line is swallowed end in a `TEXT` statement and unknown
lines. -/
theorem exists_of_nearestDirective? {ss : List Statement} {directive : Directive}
    (h : nearestDirective? ss = some directive) :
    ∃ front t back, ss = front ++ t :: back ∧ t.directive = some directive ∧
      ∀ u ∈ back, u.directive = none := by
  induction ss using List.reverseRecOn with
  | nil => exact absurd h (by simp [nearestDirective?])
  | append_singleton ss s ih =>
      rw [nearestDirective?_concat] at h
      cases hs : s.directive with
      | some own =>
          rw [hs, Option.some_or] at h
          exact ⟨ss, s, [], rfl, by rw [hs, h], by simp⟩
      | none =>
          rw [hs, Option.none_or] at h
          obtain ⟨front, t, back, rfl, ht, hback⟩ := ih h
          refine ⟨front, t, back ++ [s], by simp, ht, ?_⟩
          intro u hu
          rcases List.mem_append.1 hu with hu | hu
          · exact hback u hu
          · rw [List.mem_singleton.1 hu, hs]

theorem takeWhile_reverse_of_cut {front back : List Statement} {t : Statement}
    (ht : t.directive.isSome = true) (hback : ∀ u ∈ back, u.directive = none) :
    (front ++ t :: back).reverse.takeWhile (·.directive.isNone) = back.reverse := by
  rw [List.reverse_append, List.reverse_cons, List.append_assoc,
    List.takeWhile_append_of_pos (by simpa using hback)]
  simp [Option.isSome_iff_ne_none.1 ht]

/-- There is one way only to cut statements at their last directive. -/
theorem cut_at_last_directive {front front' back back' : List Statement} {t t' : Statement}
    (h : front ++ t :: back = front' ++ t' :: back')
    (ht : t.directive.isSome = true) (ht' : t'.directive.isSome = true)
    (hback : ∀ u ∈ back, u.directive = none) (hback' : ∀ u ∈ back', u.directive = none) :
    front = front' ∧ t = t' ∧ back = back' := by
  have hsame : back = back' := by
    have hrev : (front ++ t :: back).reverse.takeWhile (·.directive.isNone) = back.reverse :=
      takeWhile_reverse_of_cut ht hback
    rw [h, takeWhile_reverse_of_cut ht' hback'] at hrev
    exact (List.reverse_injective hrev).symm
  subst hsame
  rw [List.append_cons front, List.append_cons front'] at h
  obtain ⟨hfront, hlast⟩ := List.append_inj' (List.append_cancel_right h) rfl
  exact ⟨hfront, (List.cons.inj hlast).1, rfl⟩

namespace Occurrence

/-- An unknown line belongs to a block when its own place is reached from the block's opening
over unknown lines. -/
theorem mem_continuation_iff {ss : List Statement} (hlines : (ss.map (·.line)).Nodup)
    {o u : Occurrence} (ho : o ∈ list ss) (hu : u ∈ list ss) :
    u.statement ∈ o.continuation ↔ u.statement.directive = none ∧
      ∃ back, u.before = o.before ++ o.statement :: back ∧ ∀ v ∈ back, v.directive = none := by
  rw [mem_list_iff] at ho hu
  have hnodup : ss.Nodup := List.Nodup.of_map _ hlines
  constructor
  · intro hmem
    obtain ⟨back, rest, hcont⟩ := List.append_of_mem hmem
    have hunknown : ∀ v ∈ o.continuation, v.directive = none := by
      intro v hv
      simpa using List.mem_takeWhile_imp hv
    obtain ⟨more, hmore⟩ : o.continuation <+: o.after := List.takeWhile_prefix _
    have hcut : ss = (o.before ++ o.statement :: back) ++ u.statement :: (rest ++ more) := by
      rw [ho, ← hmore, hcont]
      simp
    refine ⟨hunknown _ hmem, back, ?_, fun v hv => hunknown v (by simp [hcont, hv])⟩
    have hnotBefore : u.statement ∉ u.before := by
      rw [hu] at hnodup
      have hdisjoint := (List.nodup_append.1 hnodup).2.2
      exact fun h => hdisjoint _ h _ (by simp) rfl
    have hnotAfter : u.statement ∉ u.after := by
      rw [hu] at hnodup
      exact (List.nodup_cons.1 (List.nodup_append.1 hnodup).2.1).1
    rw [hu] at hcut
    exact ((List.append_cons_inj_of_notMem hnotBefore hnotAfter).1 hcut).1
  · rintro ⟨hdirective, back, hbefore, hback⟩
    have hafter : o.after = back ++ u.statement :: u.after := by
      rw [hu, hbefore, List.append_assoc, List.cons_append] at ho
      exact (List.cons.inj (List.append_cancel_left ho)).2.symm
    rw [continuation, hafter, List.takeWhile_append_of_pos (by simpa using hback)]
    simp [hdirective]

/-- Every swallowed line belongs to exactly one block of notes. -/
theorem existsUnique_block {ss : List Statement} (hlines : (ss.map (·.line)).Nodup)
    {u : Occurrence} (hu : u ∈ list ss) (hswallowed : u.isSwallowed = true) :
    ∃! o, o ∈ list ss ∧ o.isText = true ∧ u.statement ∈ o.continuation := by
  rw [isSwallowed, Bool.and_eq_true, Option.isNone_iff_eq_none, beq_iff_eq] at hswallowed
  obtain ⟨hdirective, hnearest⟩ := hswallowed
  -- the block opens at the last directive before the line
  obtain ⟨front, t, back, hbefore, ht, hback⟩ := exists_of_nearestDirective? hnearest
  have hss := mem_list_iff.1 hu
  rw [hbefore, List.append_assoc, List.cons_append] at hss
  have hopen : ⟨front, t, back ++ u.statement :: u.after⟩ ∈ list ss := mem_list_iff.2 hss
  refine ⟨⟨front, t, back ++ u.statement :: u.after⟩, ⟨hopen, beq_iff_eq.2 ht, ?_⟩, ?_⟩
  · exact (mem_continuation_iff hlines hopen hu).2 ⟨hdirective, back, hbefore, hback⟩
  · rintro ⟨before, statement, after⟩ ⟨ho, htext, hmem⟩
    obtain ⟨-, back', hbefore', hback'⟩ := (mem_continuation_iff hlines ho hu).1 hmem
    have hdirective' : statement.directive = some .text := beq_iff_eq.1 htext
    have hsplit : before ++ statement :: back' = front ++ t :: back := by
      rw [← hbefore, hbefore']
    obtain ⟨rfl, rfl, -⟩ := cut_at_last_directive hsplit (by rw [hdirective']; rfl)
      (by rw [ht]; rfl) hback' hback
    rw [mem_list_iff, hss] at ho
    rw [(List.cons.inj (List.append_cancel_left ho)).2]

end Occurrence

/-! ## Documents -/

namespace Document

theorem elements_ofStatements {ss : List Statement} (hlines : (ss.map (·.line)).Nodup) :
    (ofStatements ss).diagram.elements = (acceptedElements ss).map
      (Element.annotated fun line => Occurrence.notesFor line (Occurrence.list ss)) := by
  have hstart : ({} : Draft).diagram.elements =
      (acceptedElements []).map (Element.annotated fun _ => []) := rfl
  have hrun := Draft.closedElements_foldl_add ss Draft.HasRead.empty hstart
    (by rw [List.nil_append]; exact hlines) (fun _ _ => rfl)
  rw [ofStatements, Draft.closeBlock_eq]
  exact hrun

/-- The elements of a document have the last of the notes of their blocks. -/
theorem elements_build_annotated (source : String) :
    (build source).diagram.elements = (acceptedElements (Statement.scan source)).map
      (Element.annotated fun line =>
        Occurrence.notesFor line (Occurrence.list (Statement.scan source))) :=
  elements_ofStatements (Statement.nodup_line_scan source)

theorem map_origin_build (source : String) :
    (build source).diagram.elements.map (·.origin) =
      (acceptedElements (Statement.scan source)).map (·.origin) := by
  rw [elements_build_annotated, Element.map_origin_annotated]

/-- A block after an accepted element belongs to exactly one element. -/
theorem existsUnique_owner {source : String} {o : Occurrence}
    (ho : o ∈ Occurrence.list (Statement.scan source)) (hne : acceptedElements o.before ≠ []) :
    ∃! e, e ∈ (build source).diagram.elements ∧ o.owner? = some e.origin := by
  have hnodup : ((build source).diagram.elements.map (·.origin)).Nodup := by
    rw [map_origin_build]
    exact nodup_origin_acceptedElements (Statement.nodup_line_scan source)
  have howner : o.owner? = some ((acceptedElements o.before).getLast hne).origin := by
    rw [Occurrence.owner?, List.getLast?_eq_some_getLast hne, Option.map_some]
  have hmem : ((acceptedElements o.before).getLast hne).origin ∈
      (build source).diagram.elements.map (·.origin) := by
    rw [map_origin_build]
    apply List.mem_map_of_mem
    have hprefix := acceptedElements_isPrefix_append o.before (o.statement :: o.after)
    rw [← Occurrence.mem_list_iff.1 ho] at hprefix
    exact hprefix.subset (List.getLast_mem hne)
  obtain ⟨e, he, horigin⟩ := List.mem_map.1 hmem
  refine ⟨e, ⟨he, by rw [howner, horigin]⟩, ?_⟩
  rintro f ⟨hf, hown⟩
  have hsame : f.origin = e.origin := by
    rw [howner, Option.some.injEq] at hown
    rw [← hown, horigin]
  exact List.inj_on_of_nodup_map hnodup hf he hsame

/-- The lines of a block are those of a trimmed text without blank lines. -/
theorem lines_of_block {source : String} {o : Occurrence}
    (ho : o ∈ Occurrence.list (Statement.scan source)) :
    ∀ line ∈ o.block, line ≠ "" ∧ Text.trim line.toList = line.toList ∧ '\n' ∉ line.toList := by
  have hscan := Occurrence.mem_list_iff.1 ho
  intro line hline
  rw [Occurrence.block, List.mem_append] at hline
  rcases hline with hfirst | hnext
  · have hstatement : o.statement ∈ Statement.scan source := by
      rw [hscan]
      simp
    rw [Statement.noteStart] at hfirst
    split at hfirst
    · exact absurd hfirst (by simp)
    · rename_i hnonempty
      rw [List.mem_singleton] at hfirst
      subst hfirst
      rw [String.isEmpty_iff] at hnonempty
      refine ⟨hnonempty, ?_, ?_⟩
      · rw [String.toList_ofList, Text.trim_trim]
      · rw [String.toList_ofList]
        exact fun hmem => Statement.newline_notMem_payload hstatement (Text.mem_of_mem_trim hmem)
  · obtain ⟨s, hs, rfl⟩ := List.mem_map.1 hnext
    have hafter : s ∈ o.after := (List.takeWhile_prefix _).subset hs
    have hstatement : s ∈ Statement.scan source := by
      rw [hscan]
      simp [hafter]
    have hline := (Statement.line_mem_scan hstatement).1
    refine ⟨?_, Line.trim_text hline, Line.newline_notMem_text hline⟩
    intro hempty
    have hmeaning := Line.isMeaningful_text hline
    rw [hempty] at hmeaning
    exact absurd hmeaning (by decide)

/-- A note has the lines of its block. -/
theorem splitOn_note {source : String} {o : Occurrence} {note : Note}
    (ho : o ∈ Occurrence.list (Statement.scan source)) (hnote : o.note? = some note) :
    note.text.toList.splitOn '\n' = o.block.map String.toList := by
  rw [Occurrence.note?, Note.ofLines?] at hnote
  split at hnote
  · exact absurd hnote (by simp)
  · rename_i hnonempty
    rw [← Option.some.inj hnote, String.toList_intercalate]
    have hne : o.block ≠ [] := by
      intro hnil
      rw [hnil] at hnonempty
      exact absurd rfl hnonempty
    refine List.splitOn_intercalate '\n' ?_ (by simpa using hne)
    intro l hl
    obtain ⟨line, hline, rfl⟩ := List.mem_map.1 hl
    exact (lines_of_block ho line hline).2.2

theorem note_of_mem {source : String} {e : Element} (he : e ∈ (build source).diagram.elements) :
    e.note = (Occurrence.notesFor e.origin
      (Occurrence.list (Statement.scan source))).getLast? := by
  rw [elements_build_annotated] at he
  obtain ⟨f, -, rfl⟩ := List.mem_map.1 he
  rw [Element.note_annotated, Element.origin_annotated]

/-- The note of an element is that of a block of its own. -/
theorem exists_block_of_note {source : String} {e : Element} {note : Note}
    (he : e ∈ (build source).diagram.elements) (hnote : e.note = some note) :
    ∃ o ∈ Occurrence.list (Statement.scan source),
      o.isText = true ∧ o.owner? = some e.origin ∧ o.note? = some note := by
  rw [note_of_mem he] at hnote
  have hmem := List.mem_of_getLast? hnote
  rw [Occurrence.notesFor, List.mem_filterMap] at hmem
  obtain ⟨o, ho, hblock⟩ := hmem
  rw [List.mem_filter, Bool.and_eq_true, beq_iff_eq] at ho
  exact ⟨o, ho.1, ho.2.1, ho.2.2, hblock⟩

/-- **Notes go where they belong.**  Every element has the note of the last of its blocks with
any text, and every line of a note is a trimmed line of that block, never a blank line or a
comment.  Each line of notes is part of exactly one block, and each block belongs to exactly
one element, or to none when nothing has been accepted before it. -/
theorem note_build (source : String) :
    (∀ e ∈ (build source).diagram.elements,
      e.note = (Occurrence.notesFor e.origin
        (Occurrence.list (Statement.scan source))).getLast?) ∧
    (∀ e ∈ (build source).diagram.elements, ∀ note, e.note = some note →
      ∃ o ∈ Occurrence.list (Statement.scan source),
        o.isText = true ∧ o.owner? = some e.origin ∧
        note.text.toList.splitOn '\n' = o.block.map String.toList ∧
        (∀ line ∈ o.block, line ≠ "" ∧ Text.trim line.toList = line.toList) ∧
        ∀ s ∈ o.continuation,
          s.directive = none ∧ Line.isMeaningful s.line.text.toList = true) ∧
    (∀ u ∈ Occurrence.list (Statement.scan source), u.isSwallowed = true →
      ∃! o, o ∈ Occurrence.list (Statement.scan source) ∧ o.isText = true ∧
        u.statement ∈ o.continuation) ∧
    (∀ o ∈ Occurrence.list (Statement.scan source), o.isText = true →
      if acceptedElements o.before = [] then
        ∀ e ∈ (build source).diagram.elements, o.owner? ≠ some e.origin
      else ∃! e, e ∈ (build source).diagram.elements ∧ o.owner? = some e.origin) := by
  refine ⟨fun e he => note_of_mem he, ?_, ?_, ?_⟩
  · intro e he note hnote
    obtain ⟨o, ho, htext, howner, hblock⟩ := exists_block_of_note he hnote
    refine ⟨o, ho, htext, howner, splitOn_note ho hblock, ?_, ?_⟩
    · intro line hline
      obtain ⟨hnonempty, htrim, -⟩ := lines_of_block ho line hline
      exact ⟨hnonempty, htrim⟩
    · intro s hs
      have hscan : s ∈ Statement.scan source := by
        rw [Occurrence.mem_list_iff.1 ho]
        have hafter : s ∈ o.after := (List.takeWhile_prefix _).subset hs
        simp [hafter]
      have hdirective : s.directive.isNone = true :=
        List.mem_takeWhile_imp (p := fun t : Statement => t.directive.isNone) hs
      rw [Option.isNone_iff_eq_none] at hdirective
      exact ⟨hdirective, Line.isMeaningful_text (Statement.line_mem_scan hscan).1⟩
  · intro u hu hswallowed
    exact Occurrence.existsUnique_block (Statement.nodup_line_scan source) hu hswallowed
  · intro o ho _
    split
    · rename_i hnil
      intro e _
      rw [Occurrence.owner?, hnil]
      simp
    · rename_i hne
      exact existsUnique_owner ho hne

example :
    (build ("ELEMENT: 1, Event, A, 0;0\nTEXT: one\n# two\n\n three\nTEXT:\n" ++
      "ELEMENT: 1, , , 0;0\nTEXT:")).diagram.elements.map (·.note) =
      [some ⟨"one\nthree"⟩] := by
  decide +kernel

end Document

end EventModel
