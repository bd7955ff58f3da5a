import EventModel.Proofs.Document.Origins

/-!
# Continuing a document

What is appended to a document, after a line feed, is read after the document, and reading it
cannot reach back: what has been declared and reported stays (`build_isContinuedBy`).  One thing is
still open at the end of a document, the note of the last element, since a block of notes may go on
in what is appended or another one may open there.
-/

namespace EventModel

namespace Element

/-- The elements are continued by others: the last of them may have got another note, and more
elements may have come. -/
def IsContinuedBy (es fs : List Element) : Prop :=
  ∃ more, fs = es ++ more ∨ ∃ note, fs = annotateLast note es ++ more

theorem annotateLast_append (note : Note) (es : List Element) {fs : List Element} (h : fs ≠ []) :
    annotateLast note (es ++ fs) = es ++ annotateLast note fs := by
  rcases List.eq_nil_or_concat fs with rfl | ⟨front, e, rfl⟩
  · exact absurd rfl h
  · rw [List.concat_eq_append, ← List.append_assoc, annotateLast_concat, annotateLast_concat,
      List.append_assoc]

/-- The note given last is the one that counts. -/
theorem annotateLast_annotateLast (note note' : Note) (es : List Element) :
    annotateLast note' (annotateLast note es) = annotateLast note' es := by
  rcases List.eq_nil_or_concat es with rfl | ⟨front, e, rfl⟩
  · rfl
  · rw [List.concat_eq_append, annotateLast_concat, annotateLast_concat, annotateLast_concat]

theorem dropLast_annotateLast (note : Note) (es : List Element) :
    (annotateLast note es).dropLast = es.dropLast := by
  rcases List.eq_nil_or_concat es with rfl | ⟨front, e, rfl⟩
  · rfl
  · rw [List.concat_eq_append, annotateLast_concat, List.dropLast_concat, List.dropLast_concat]

namespace IsContinuedBy

theorem refl (es : List Element) : IsContinuedBy es es :=
  ⟨[], Or.inl (List.append_nil es).symm⟩

theorem append_of {es fs : List Element} (h : IsContinuedBy es fs) (more : List Element) :
    IsContinuedBy es (fs ++ more) := by
  obtain ⟨before, rfl | ⟨note, rfl⟩⟩ := h
  · exact ⟨before ++ more, Or.inl (List.append_assoc _ _ _)⟩
  · exact ⟨before ++ more, Or.inr ⟨note, List.append_assoc _ _ _⟩⟩

/-- A note for the last of all elements is one for the last of the old ones, if no more came. -/
theorem annotateLast_of {es fs : List Element} (h : IsContinuedBy es fs) (note : Note) :
    IsContinuedBy es (annotateLast note fs) := by
  obtain ⟨more, hfs⟩ := h
  by_cases hmore : more = []
  · subst hmore
    refine ⟨[], Or.inr ⟨note, ?_⟩⟩
    rcases hfs with rfl | ⟨note', rfl⟩
    · rw [List.append_nil, List.append_nil]
    · rw [List.append_nil, List.append_nil, annotateLast_annotateLast]
  · refine ⟨annotateLast note more, ?_⟩
    rcases hfs with rfl | ⟨note', rfl⟩
    · exact Or.inl (annotateLast_append note es hmore)
    · exact Or.inr ⟨note', annotateLast_append note _ hmore⟩

theorem trans {es fs gs : List Element} (h : IsContinuedBy es fs) (h' : IsContinuedBy fs gs) :
    IsContinuedBy es gs := by
  obtain ⟨more, rfl | ⟨note, rfl⟩⟩ := h'
  · exact h.append_of more
  · exact (h.annotateLast_of note).append_of more

/-! ## What stays -/

theorem withoutNote_prefix {es fs : List Element} (h : IsContinuedBy es fs) :
    es.map withoutNote <+: fs.map withoutNote := by
  obtain ⟨more, rfl | ⟨note, rfl⟩⟩ := h
  · rw [List.map_append]
    exact List.prefix_append _ _
  · rw [List.map_append, map_withoutNote_annotateLast]
    exact List.prefix_append _ _

theorem dropLast_prefix {es fs : List Element} (h : IsContinuedBy es fs) :
    es.dropLast <+: fs := by
  obtain ⟨more, rfl | ⟨note, rfl⟩⟩ := h
  · exact (List.dropLast_prefix es).trans (List.prefix_append es more)
  · rw [← dropLast_annotateLast note es]
    exact (List.dropLast_prefix _).trans (List.prefix_append _ more)

theorem isSome_note {es fs : List Element} (h : IsContinuedBy es fs) {e : Element}
    (he : e ∈ es) (hnote : e.note.isSome = true) :
    ∃ f ∈ fs, f.withoutNote = e.withoutNote ∧ f.note.isSome = true := by
  obtain ⟨more, rfl | ⟨note, rfl⟩⟩ := h
  · exact ⟨e, List.mem_append_left more he, rfl, hnote⟩
  · rcases List.eq_nil_or_concat es with rfl | ⟨front, last, rfl⟩
    · exact absurd he List.not_mem_nil
    · rw [List.concat_eq_append] at he ⊢
      rw [annotateLast_concat]
      rcases List.mem_append.1 he with hfront | hlast
      · exact ⟨e, List.mem_append_left more (List.mem_append_left _ hfront), rfl, hnote⟩
      · rw [List.mem_singleton.1 hlast]
        refine ⟨{ last with note := some note }, ?_, rfl, rfl⟩
        exact List.mem_append_left more (List.mem_append_right front List.mem_cons_self)

end IsContinuedBy

end Element

/-! ## Reading on -/

/-- A block that has some text has some still when a line has come. -/
theorem Note.isSome_ofLines?_concat {lines : List String} (h : (ofLines? lines).isSome = true)
    (line : String) : (ofLines? (lines ++ [line])).isSome = true := by
  cases lines with
  | nil => exact absurd h (by decide)
  | cons first others =>
      have htext : "\n".intercalate (first :: others ++ [line]) ≠ "" := by
        intro hempty
        have hlist := congrArg String.toList hempty
        rw [String.toList_intercalate, List.cons_append, List.map_cons,
          List.intercalate_cons_of_ne_nil (by simp)] at hlist
        exact absurd hlist (by simp)
      rw [ofLines?, if_neg (by rwa [String.isEmpty_iff])]
      rfl

namespace Draft

/-- While a block is open its text can grow, and so the note can change that it holds. -/
theorem closedElements_add_unknown {d : Draft} {s : Statement} {lines : List String}
    (hblock : d.block = some lines) (hs : s.directive = none) :
    Element.IsContinuedBy d.closedElements (d.add s).closedElements := by
  rw [add_of_block hblock hs, closedElements, closedElements, hblock]
  simp only [Option.bind_some]
  cases hnote : Note.ofLines? lines with
  | none =>
      cases Note.ofLines? (lines ++ [s.line.text]) with
      | none => exact Element.IsContinuedBy.refl _
      | some note' => exact (Element.IsContinuedBy.refl _).annotateLast_of note'
  | some note =>
      have hmore := Note.isSome_ofLines?_concat (by rw [hnote]; rfl) s.line.text
      obtain ⟨note', hnote'⟩ := Option.isSome_iff_exists.1 hmore
      simp only [hnote']
      rw [← Element.annotateLast_annotateLast note note']
      exact (Element.IsContinuedBy.refl _).annotateLast_of _

/-- Any other statement finds the elements closed, and may add one or open a block. -/
theorem closedElements_add_accepted {d : Draft} {s : Statement}
    (hs : d.block = none ∨ s.directive.isSome = true) :
    Element.IsContinuedBy d.closedElements (d.add s).closedElements := by
  have helements : Element.IsContinuedBy d.closedElements (d.add s).diagram.elements := by
    rw [add_of_closed hs, diagram_accept, closeBlock_eq]
    exact (Element.IsContinuedBy.refl _).append_of _
  refine helements.trans ?_
  rw [closedElements]
  split
  · exact Element.IsContinuedBy.refl _
  · exact (Element.IsContinuedBy.refl _).annotateLast_of _

theorem closedElements_add (d : Draft) (s : Statement) :
    Element.IsContinuedBy d.closedElements (d.add s).closedElements := by
  rcases closed_or_block d s with hs | ⟨lines, hblock, hs⟩
  · exact closedElements_add_accepted hs
  · exact closedElements_add_unknown hblock hs

theorem closedElements_foldl (d : Draft) (ss : List Statement) :
    Element.IsContinuedBy d.closedElements (ss.foldl add d).closedElements := by
  induction ss generalizing d with
  | nil => exact Element.IsContinuedBy.refl _
  | cons s ss ih => exact (closedElements_add d s).trans (ih (d.add s))

end Draft

/-! ## Lines of what is appended -/

theorem Text.Fragment.locate_prefix (start : Nat) (pieces others : List (List Char)) :
    locate start pieces <+: locate start (pieces ++ others) := by
  induction pieces generalizing start with
  | nil => exact List.nil_prefix
  | cons piece pieces ih =>
      rw [List.cons_append, locate, locate]
      exact List.cons_prefix_cons.2 ⟨rfl, ih _⟩

/-- Appending moves no line of a document. -/
theorem Line.scan_prefix (source appended : String) :
    scan source <+: scan (source ++ "\n" ++ appended) := by
  have hpieces : (source ++ "\n" ++ appended).toList.splitOn '\n' =
      source.toList.splitOn '\n' ++ appended.toList.splitOn '\n' := by
    rw [String.toList_append, String.toList_append, List.append_assoc]
    exact List.splitOn_append_cons_self _ _
  obtain ⟨more, hmore⟩ := Text.Fragment.locate_prefix 0 (source.toList.splitOn '\n')
    (appended.toList.splitOn '\n')
  rw [scan, scan, hpieces, ← hmore, List.zipIdx_append, List.filterMap_append]
  exact List.prefix_append _ _

theorem Statement.scan_prefix (source appended : String) :
    scan source <+: scan (source ++ "\n" ++ appended) :=
  (Line.scan_prefix source appended).map ofLine

/-! ## Documents -/

/-- The document goes on as another one, where nothing of it is lost: what is reported, flows and
slices come again first, and so do the elements, all but the last with the notes that they have;
and what has a description, a level or a note keeps having one. -/
structure Document.IsContinuedBy (d d' : Document) : Prop where
  diagnostics : d.diagnostics <+: d'.diagnostics
  flows : d.diagram.flows <+: d'.diagram.flows
  slices : d.diagram.slices <+: d'.diagram.slices
  elements : d.diagram.elements.map Element.withoutNote <+:
    d'.diagram.elements.map Element.withoutNote
  settled : d.diagram.elements.dropLast <+: d'.diagram.elements
  description : d.diagram.description.isSome = true → d'.diagram.description.isSome = true
  level : d.diagram.level.isSome = true → d'.diagram.level.isSome = true
  note : ∀ e ∈ d.diagram.elements, e.note.isSome = true →
    ∃ e' ∈ d'.diagram.elements, e'.withoutNote = e.withoutNote ∧ e'.note.isSome = true

theorem isSome_getLast?_of_prefix {α : Type} {as bs : List α} (h : as <+: bs)
    (hlast : as.getLast?.isSome = true) : bs.getLast?.isSome = true := by
  rw [List.getLast?_isSome] at hlast ⊢
  exact fun hnil => hlast (List.prefix_nil.1 (hnil ▸ h))

theorem Occurrence.diagnostics_prefix {ss ss' : List Statement} (h : ss <+: ss') :
    (list ss).filterMap diagnostic? <+: (list ss').filterMap diagnostic? := by
  obtain ⟨others, rfl⟩ := h
  have hafter : diagnostic? ∘ (fun o : Occurrence => { o with after := o.after ++ others }) =
      diagnostic? := rfl
  rw [list, list, listFrom_append, List.filterMap_append, List.filterMap_map, hafter]
  exact List.prefix_append _ _

namespace Document

theorem elements_ofStatements_append (ss others : List Statement) :
    Element.IsContinuedBy (ofStatements ss).diagram.elements
      (ofStatements (ss ++ others)).diagram.elements := by
  rw [ofStatements, ofStatements, Draft.closeBlock_eq, Draft.closeBlock_eq, List.foldl_append]
  exact Draft.closedElements_foldl _ others

/-- **Appending never rewrites the past.**  A document goes on as what is read when more text
comes after a line feed. -/
theorem build_isContinuedBy (source appended : String) :
    (build source).IsContinuedBy (build (source ++ "\n" ++ appended)) := by
  have hscan := Statement.scan_prefix source appended
  have helements : Element.IsContinuedBy (build source).diagram.elements
      (build (source ++ "\n" ++ appended)).diagram.elements := by
    obtain ⟨others, hothers⟩ := hscan
    rw [build, build, ← hothers]
    exact elements_ofStatements_append _ others
  constructor
  case diagnostics =>
    rw [diagnostics_build, diagnostics_build]
    exact Occurrence.diagnostics_prefix hscan
  case flows =>
    rw [flows_build, flows_build]
    exact hscan.filterMap _
  case slices =>
    rw [slices_build, slices_build]
    exact hscan.filterMap _
  case elements => exact helements.withoutNote_prefix
  case settled => exact helements.dropLast_prefix
  case description =>
    rw [description_build, description_build]
    exact isSome_getLast?_of_prefix (hscan.filterMap _)
  case level =>
    rw [level_build, level_build]
    exact isSome_getLast?_of_prefix (hscan.filterMap _)
  case note =>
    intro e he hnote
    exact helements.isSome_note he hnote

example :
    let source := "ELEMENT: 1, Event, A, 0;0\nELEMENT: 2, Event, B, 1;0\nTEXT: one"
    (build source).diagram.elements.map (·.note) = [none, some ⟨"one"⟩] ∧
      (build (source ++ "\n" ++ "two\nELEMENT: 2, Event, C, 1;0")).diagram.elements.map (·.note) =
        [none, some ⟨"one\ntwo"⟩] := by
  decide +kernel

end Document

end EventModel
