import EventModel.Proofs.Document.Account

/-!
# Reading keeps the account

A draft has read some statements when it holds what the account says of them (`HasRead`).
Adding one statement keeps this (`HasRead.add`), so a whole document is read as accounted for
(`build_eq_account`).
-/

namespace EventModel

/-! ## What adding a statement does to a draft -/

namespace Element

@[simp] theorem id_withoutNote (e : Element) : e.withoutNote.id = e.id := rfl

@[simp] theorem origin_withoutNote (e : Element) : e.withoutNote.origin = e.origin := rfl

theorem annotateLast_concat (note : Note) (es : List Element) (e : Element) :
    annotateLast note (es ++ [e]) = es ++ [{ e with note := some note }] := by
  induction es with
  | nil => rfl
  | cons f es ih =>
      cases es with
      | nil => rfl
      | cons g es =>
          rw [List.cons_append, List.cons_append, annotateLast, ← List.cons_append, ih]
          rfl

/-- What leaves notes alone can be done before or after one is given. -/
theorem map_annotateLast {f : Element → Element} {note : Note}
    (hf : ∀ e : Element, f { e with note := some note } = { f e with note := some note })
    (es : List Element) : (annotateLast note es).map f = annotateLast note (es.map f) := by
  rcases List.eq_nil_or_concat es with rfl | ⟨es, e, rfl⟩
  · rfl
  · rw [List.concat_eq_append, annotateLast_concat, List.map_append, List.map_append,
      List.map_singleton, List.map_singleton, annotateLast_concat, hf]

theorem map_withoutNote_annotateLast (note : Note) (es : List Element) :
    (annotateLast note es).map withoutNote = es.map withoutNote := by
  rcases List.eq_nil_or_concat es with rfl | ⟨es, e, rfl⟩
  · rfl
  · rw [List.concat_eq_append, annotateLast_concat, List.map_append, List.map_append]
    rfl

end Element

namespace Draft

@[simp] theorem diagram_refuse (d : Draft) (s : Statement) (fault : Fault) :
    (d.refuse s fault).diagram = d.diagram := rfl

@[simp] theorem block_refuse (d : Draft) (s : Statement) (fault : Fault) :
    (d.refuse s fault).block = d.block := rfl

@[simp] theorem diagram_openBlock (d : Draft) (s : Statement) (first : String) :
    (d.openBlock s first).diagram = d.diagram := by
  rw [openBlock]
  split <;> rfl

@[simp] theorem block_openBlock (d : Draft) (s : Statement) (first : String) :
    (d.openBlock s first).block = some (if first.isEmpty then [] else [first]) := by
  rw [openBlock]
  split <;> rfl

@[simp] theorem block_addElement (d : Draft) (s : Statement) (e : Element) :
    (d.addElement s e).block = d.block := by
  rw [addElement]
  split <;> rfl

/-- The elements of a draft once the open block is attached. -/
def closedElements (d : Draft) : List Element :=
  match d.block.bind Note.ofLines? with
  | none => d.diagram.elements
  | some note => Element.annotateLast note d.diagram.elements

/-- Closing the block touches the elements and the block, and nothing else. -/
theorem closeBlock_eq (d : Draft) :
    d.closeBlock =
      { d with diagram := { d.diagram with elements := d.closedElements }, block := none } := by
  rw [closeBlock, closedElements]
  cases hblock : d.block with
  | none => cases d; simp_all
  | some lines =>
      simp only [Option.bind_some, Note.ofLines?]
      split <;> rfl

theorem map_withoutNote_closedElements (d : Draft) :
    d.closedElements.map Element.withoutNote = d.diagram.elements.map Element.withoutNote := by
  rw [closedElements]
  split
  · rfl
  · exact Element.map_withoutNote_annotateLast _ _

/-- What accepting a statement does to the diagram: whatever it declares takes its place, an
element only if its id is free. -/
theorem diagram_accept (d : Draft) (s : Statement) :
    (d.accept s).diagram =
      { description := s.description?.or d.diagram.description
        level := s.level?.or d.diagram.level
        elements := d.diagram.elements ++
          (s.element?.filter fun e => (d.diagram.element? e.id).isNone).toList
        flows := d.diagram.flows ++ s.flow?.toList
        slices := d.diagram.slices ++ s.slice?.toList } := by
  rw [accept, Statement.description?, Statement.level?, Statement.element?, Statement.flow?,
    Statement.slice?]
  cases s.declaration with
  | error fault => simp
  | ok declaration =>
      cases declaration with
      | element id typeName name cell =>
          simp only [declare, addElement]
          cases hfirst : d.diagram.element? id <;> simp [Option.filter, hfirst]
      | _ => simp [declare]

theorem declaration_of_text {s : Statement} (hs : s.directive = some .text) :
    s.declaration = .ok (.note (String.ofList (Text.trim s.payload))) := by
  rw [Statement.declaration, hs]
  rfl

/-- A `TEXT` statement opens a block, and no other statement does. -/
theorem block_accept {d : Draft} (hd : d.block = none) (s : Statement) :
    (d.accept s).block = if s.directive = some .text then some s.noteStart else none := by
  by_cases htext : s.directive = some .text
  · rw [accept, declaration_of_text htext, if_pos htext]
    exact block_openBlock _ _ _
  · rw [accept, if_neg htext]
    cases hdeclaration : s.declaration with
    | error fault => exact hd
    | ok declaration =>
        rw [Statement.directive_of_declaration hdeclaration] at htext
        cases declaration with
        | note first => exact absurd rfl htext
        | element id typeName name cell => exact (block_addElement _ _ _).trans hd
        | _ => exact hd

/-- The line of a statement without a directive goes to the open block. -/
theorem add_of_block {d : Draft} {s : Statement} {lines : List String}
    (hblock : d.block = some lines) (hs : s.directive = none) :
    d.add s = { d with block := some (lines ++ [s.line.text]) } := by
  rw [add, hblock, hs]

/-- Any other statement closes the block first. -/
theorem add_of_closed {d : Draft} {s : Statement}
    (h : d.block = none ∨ s.directive.isSome = true) : d.add s = d.closeBlock.accept s := by
  rw [add]
  rcases h with hblock | hs
  · rw [hblock]
  · obtain ⟨directive, hdirective⟩ := Option.isSome_iff_exists.1 hs
    rw [hdirective]
    cases d.block <;> rfl

theorem closed_or_block (d : Draft) (s : Statement) :
    (d.block = none ∨ s.directive.isSome = true) ∨
      ∃ lines, d.block = some lines ∧ s.directive = none := by
  cases hblock : d.block with
  | none => exact Or.inl (Or.inl rfl)
  | some lines =>
      cases hs : s.directive with
      | none => exact Or.inr ⟨lines, rfl, rfl⟩
      | some directive => exact Or.inl (Or.inr rfl)

/-! ## Drafts that have read some statements -/

/-- The draft holds what the account says of some statements. -/
structure HasRead (d : Draft) (ss : List Statement) : Prop where
  description : d.diagram.description = (ss.filterMap Statement.description?).getLast?
  level : d.diagram.level = (ss.filterMap Statement.level?).getLast?
  elements : d.diagram.elements.map Element.withoutNote = acceptedElements ss
  flows : d.diagram.flows = ss.filterMap Statement.flow?
  slices : d.diagram.slices = ss.filterMap Statement.slice?
  diagnostics : d.diagnostics = (Occurrence.list ss).filterMap Occurrence.diagnostic?
  block : d.block.isSome = (nearestDirective? ss == some .text)

theorem find?_map_withoutNote (es : List Element) (id : ElementId) :
    (es.map Element.withoutNote).find? (·.id == id) =
      (es.find? (·.id == id)).map Element.withoutNote := by
  rw [List.find?_map]
  rfl

/-- What accepting a statement adds to the report. -/
theorem diagnostics_accept {d : Draft} {ss : List Statement} (s : Statement)
    (hd : d.diagram.elements.map Element.withoutNote = acceptedElements ss)
    (hs : (⟨ss, s, []⟩ : Occurrence).isSwallowed = false) :
    (d.accept s).diagnostics =
      d.diagnostics ++ (Occurrence.diagnostic? ⟨ss, s, []⟩).toList := by
  have hfirst : ∀ id, (acceptedElements ss).find? (·.id == id) =
      (d.diagram.element? id).map Element.withoutNote := by
    intro id
    rw [← hd, find?_map_withoutNote, Diagram.element?]
  have hnil : acceptedElements ss = [] ↔ d.diagram.elements.isEmpty = true := by
    rw [← hd, List.map_eq_nil_iff, List.isEmpty_iff]
  rw [accept, Occurrence.diagnostic?, Occurrence.fault?]
  cases hdeclaration : s.declaration with
  | error fault =>
      cases hdirective : s.directive with
      | none =>
          rw [Statement.declaration_of_directive_none hdirective, Except.error.injEq]
            at hdeclaration
          simp [refuse, hs, ← hdeclaration]
      | some directive => simp [refuse]
  | ok declaration =>
      rw [Statement.directive_of_declaration hdeclaration]
      cases declaration with
      | element id typeName name cell =>
          cases hfind : d.diagram.element? id <;>
            simp [declare, addElement, refuse, Occurrence.clash?, hfirst, hfind]
      | note first =>
          by_cases hempty : d.diagram.elements.isEmpty = true
          · simp [declare, openBlock, refuse, hempty, Occurrence.clash?, hnil.2 hempty]
          · have hne : acceptedElements ss ≠ [] := fun h => hempty (hnil.1 h)
            simp [declare, openBlock, hempty, Occurrence.clash?, hne]
      | _ => simp [declare, Occurrence.clash?]

namespace HasRead

theorem empty : HasRead {} [] where
  description := rfl
  level := rfl
  elements := rfl
  flows := rfl
  slices := rfl
  diagnostics := rfl
  block := rfl

/-- Closing the block changes no more than notes. -/
theorem closeBlock {d : Draft} {ss : List Statement} (h : HasRead d ss) :
    d.closeBlock.diagram.elements.map Element.withoutNote = acceptedElements ss := by
  rw [closeBlock_eq]
  exact (map_withoutNote_closedElements d).trans h.elements

theorem isNone_element? {d : Draft} {ss : List Statement} (h : HasRead d ss) (id : ElementId) :
    (d.closeBlock.diagram.element? id).isNone =
      ((acceptedElements ss).find? (·.id == id)).isNone := by
  rw [← h.closeBlock, find?_map_withoutNote, Option.isNone_map, Diagram.element?]

/-- A statement that goes to the open block declares nothing and is no fault. -/
theorem add_swallowed {d : Draft} {ss : List Statement} (h : HasRead d ss) {s : Statement}
    {lines : List String} (hblock : d.block = some lines) (hs : s.directive = none) :
    HasRead (d.add s) (ss ++ [s]) := by
  have hdeclaration := Statement.declaration_of_directive_none hs
  have hnearest : nearestDirective? ss = some .text := by
    have hopen := h.block
    rw [hblock, Option.isSome_some, eq_comm, beq_iff_eq] at hopen
    exact hopen
  rw [add_of_block hblock hs]
  constructor
  case description => simp [h.description, Statement.description?, hdeclaration]
  case level => simp [h.level, Statement.level?, hdeclaration]
  case elements => simp [h.elements, acceptedElements_concat, Statement.element?, hdeclaration]
  case flows => simp [h.flows, Statement.flow?, hdeclaration]
  case slices => simp [h.slices, Statement.slice?, hdeclaration]
  case diagnostics =>
    rw [Occurrence.filterMap_diagnostic?_concat, ← h.diagnostics]
    simp [Occurrence.diagnostic?, Occurrence.fault?, Occurrence.isSwallowed, hs, hnearest]
  case block =>
    rw [nearestDirective?_concat, hs, Option.none_or, hnearest]
    rfl

/-- Any other statement does what the account says of it. -/
theorem add_accepted {d : Draft} {ss : List Statement} (h : HasRead d ss) {s : Statement}
    (hs : d.block = none ∨ s.directive.isSome = true) : HasRead (d.add s) (ss ++ [s]) := by
  have hswallowed : (⟨ss, s, []⟩ : Occurrence).isSwallowed = false := by
    rcases hs with hblock | hdirective
    · have hopen := h.block
      rw [hblock, Option.isSome_none, eq_comm] at hopen
      simp [Occurrence.isSwallowed, hopen]
    · simp [Occurrence.isSwallowed, Option.isSome_iff_ne_none.1 hdirective]
  have helements := h.closeBlock
  have hblock : d.closeBlock.block = none := by rw [closeBlock_eq]
  rw [add_of_closed hs]
  constructor
  case description =>
    rw [diagram_accept, closeBlock_eq]
    cases hd : s.description? <;> simp [h.description, hd]
  case level =>
    rw [diagram_accept, closeBlock_eq]
    cases hl : s.level? <;> simp [h.level, hl]
  case elements =>
    -- an id is free in the draft just when no accepted element has it
    rw [diagram_accept, acceptedElements_concat, List.map_append, helements]
    simp only [h.isNone_element?]
    cases he : s.element? with
    | none => simp
    | some e =>
        by_cases hid : ((acceptedElements ss).find? (·.id == e.id)).isNone = true
        · simp [Option.filter, hid, (Statement.of_element? he).2]
        · simp [Option.filter, hid]
  case flows =>
    rw [diagram_accept, closeBlock_eq]
    cases hf : s.flow? <;> simp [h.flows, hf]
  case slices =>
    rw [diagram_accept, closeBlock_eq]
    cases hl : s.slice? <;> simp [h.slices, hl]
  case diagnostics =>
    rw [diagnostics_accept s helements hswallowed, Occurrence.filterMap_diagnostic?_concat,
      closeBlock_eq, h.diagnostics]
  case block =>
    rw [block_accept hblock, nearestDirective?_concat]
    cases hdirective : s.directive with
    | none =>
        simp only [Occurrence.isSwallowed, hdirective, Option.isNone_none, Bool.true_and]
          at hswallowed
        rw [Option.none_or, hswallowed]
        rfl
    | some directive => cases directive <;> rfl

theorem add {d : Draft} {ss : List Statement} (h : HasRead d ss) (s : Statement) :
    HasRead (d.add s) (ss ++ [s]) := by
  rcases closed_or_block d s with hs | ⟨lines, hblock, hs⟩
  · exact h.add_accepted hs
  · exact h.add_swallowed hblock hs

theorem foldl {d : Draft} {ss : List Statement} (h : HasRead d ss) (others : List Statement) :
    HasRead (others.foldl Draft.add d) (ss ++ others) := by
  induction others generalizing d ss with
  | nil => simpa using h
  | cons s others ih =>
      rw [List.foldl_cons, List.append_cons]
      exact ih (h.add s)

theorem ofStatements (ss : List Statement) : HasRead (ss.foldl Draft.add {}) ss :=
  empty.foldl ss

end HasRead

end Draft

/-! ## Documents -/

namespace Document

theorem flows_build (source : String) :
    (build source).diagram.flows = (Statement.scan source).filterMap Statement.flow? := by
  rw [build, ofStatements, Draft.closeBlock_eq]
  exact (Draft.HasRead.ofStatements _).flows

theorem slices_build (source : String) :
    (build source).diagram.slices = (Statement.scan source).filterMap Statement.slice? := by
  rw [build, ofStatements, Draft.closeBlock_eq]
  exact (Draft.HasRead.ofStatements _).slices

theorem elements_build (source : String) :
    (build source).diagram.elements.map Element.withoutNote =
      acceptedElements (Statement.scan source) :=
  (Draft.HasRead.ofStatements _).closeBlock

theorem nodup_id_build (source : String) :
    ((build source).diagram.elements.map Element.id).Nodup := by
  have hids := nodup_id_acceptedElements (Statement.scan source)
  rw [← elements_build, List.map_map] at hids
  exact hids

theorem diagnostics_build (source : String) :
    (build source).diagnostics =
      (Occurrence.list (Statement.scan source)).filterMap Occurrence.diagnostic? := by
  rw [build, ofStatements, Draft.closeBlock_eq]
  exact (Draft.HasRead.ofStatements _).diagnostics

theorem description_build (source : String) :
    (build source).diagram.description =
      ((Statement.scan source).filterMap Statement.description?).getLast? := by
  rw [build, ofStatements, Draft.closeBlock_eq]
  exact (Draft.HasRead.ofStatements _).description

theorem level_build (source : String) :
    (build source).diagram.level =
      ((Statement.scan source).filterMap Statement.level?).getLast? := by
  rw [build, ofStatements, Draft.closeBlock_eq]
  exact (Draft.HasRead.ofStatements _).level

/-- **A document is read as its account says.**  Flows and slices are those that are declared,
elements those declared first under their id, description and level those declared last, and
what is reported is what is wrong with each statement where it stands. -/
theorem build_eq_account (source : String) :
    (build source).diagram.flows = (Statement.scan source).filterMap Statement.flow? ∧
      (build source).diagram.slices = (Statement.scan source).filterMap Statement.slice? ∧
      (build source).diagram.elements.map Element.withoutNote =
        acceptedElements (Statement.scan source) ∧
      ((build source).diagram.elements.map Element.id).Nodup ∧
      (build source).diagram.description =
        ((Statement.scan source).filterMap Statement.description?).getLast? ∧
      (build source).diagram.level =
        ((Statement.scan source).filterMap Statement.level?).getLast? ∧
      (build source).diagnostics =
        (Occurrence.list (Statement.scan source)).filterMap Occurrence.diagnostic? :=
  ⟨flows_build source, slices_build source, elements_build source, nodup_id_build source,
    description_build source, level_build source, diagnostics_build source⟩

end Document

end EventModel
