import EventModel.Proofs.Document.Reading
import EventModel.Proofs.Source.Scanning

/-!
# The layout of a document

Blank lines, comments, indentation and the way in which lines end are layout.  What a document
declares comes from the texts of its meaningful lines alone, and the layout decides only where
each of them stands.  So documents with the same texts are read step by step alike (`Draft.Agrees`),
and in the end declare the same, apart from places (`Document.withoutPlaces_build_eq`), with the
same reports (`Document.agrees_diagnostics_build`).
-/

namespace EventModel

/-- The texts of the meaningful lines of a document. -/
def Document.meaningfulTexts (source : String) : List (List Char) :=
  ((source.toList.splitOn '\n').map Text.trim).filter Line.isMeaningful

/-! ## Diagrams apart from places -/

/-- A line as if it stood nowhere; what is left is its text. -/
def Line.withoutPlace (line : Line) : Line :=
  { line with number := 0, span := Span.ofBounds 0 0 }

def Element.withoutPlace (e : Element) : Element := { e with origin := e.origin.withoutPlace }

def Flow.withoutPlace (f : Flow) : Flow := { f with origin := f.origin.withoutPlace }

def Slice.withoutPlace (s : Slice) : Slice := { s with origin := s.origin.withoutPlace }

/-- A diagram apart from the places of its lines. -/
def Diagram.withoutPlaces (d : Diagram) : Diagram :=
  { d with
    elements := d.elements.map Element.withoutPlace
    flows := d.flows.map Flow.withoutPlace
    slices := d.slices.map Slice.withoutPlace }

theorem Line.withoutPlace_eq_of_text {line line' : Line} (h : line.text = line'.text) :
    line.withoutPlace = line'.withoutPlace := by
  rw [withoutPlace, withoutPlace, h]

@[simp] theorem Element.id_withoutPlace (e : Element) : e.withoutPlace.id = e.id := rfl

/-! ## Agreement -/

/-- Two diagnostics are the same but for places: the line, what the labels point at, and what
their remarks say of it. -/
structure Diagnostic.Agrees (d d' : Diagnostic) : Prop where
  code : d.code = d'.code
  severity : d.severity = d'.severity
  message : d.message = d'.message
  text : d.line.text = d'.line.text
  help : d.help = d'.help
  labels : d.labels.map (·.isPrimary) = d'.labels.map (·.isPrimary)

/-- Two statements are the same but for places. -/
structure Statement.Agrees (s s' : Statement) : Prop where
  text : s.line.text = s'.line.text
  directive : s.directive = s'.directive
  payload : s.payload = s'.payload

/-- Two drafts are the same but for places. -/
structure Draft.Agrees (d d' : Draft) : Prop where
  description : d.diagram.description = d'.diagram.description
  level : d.diagram.level = d'.diagram.level
  elements : d.diagram.elements.map Element.withoutPlace =
    d'.diagram.elements.map Element.withoutPlace
  flows : d.diagram.flows.map Flow.withoutPlace = d'.diagram.flows.map Flow.withoutPlace
  slices : d.diagram.slices.map Slice.withoutPlace = d'.diagram.slices.map Slice.withoutPlace
  block : d.block = d'.block
  diagnostics : List.Forall₂ Diagnostic.Agrees d.diagnostics d'.diagnostics

namespace Diagnostic.Agrees

theorem symm {d d' : Diagnostic} (h : d.Agrees d') : d'.Agrees d :=
  ⟨h.code.symm, h.severity.symm, h.message.symm, h.text.symm, h.help.symm, h.labels.symm⟩

theorem trans {d d' d'' : Diagnostic} (h : d.Agrees d') (h' : d'.Agrees d'') : d.Agrees d'' :=
  ⟨h.code.trans h'.code, h.severity.trans h'.severity, h.message.trans h'.message,
    h.text.trans h'.text, h.help.trans h'.help, h.labels.trans h'.labels⟩

end Diagnostic.Agrees

/-! ## Statements -/

namespace Statement

theorem agrees_ofLine {line line' : Line} (h : line.text = line'.text) :
    (ofLine line).Agrees (ofLine line') := by
  rw [ofLine, ofLine, h]
  split
  · exact ⟨h, rfl, rfl⟩
  · exact ⟨h, rfl, rfl⟩

theorem Agrees.declaration_eq {s s' : Statement} (h : s.Agrees s') :
    s.declaration = s'.declaration := by
  rw [declaration, declaration, h.directive, h.payload]

theorem Agrees.line_eq {s s' : Statement} (h : s.Agrees s') :
    s.line.withoutPlace = s'.line.withoutPlace :=
  Line.withoutPlace_eq_of_text h.text

theorem agrees_scan {source source' : String}
    (h : Document.meaningfulTexts source = Document.meaningfulTexts source') :
    List.Forall₂ Agrees (scan source) (scan source') := by
  rw [Document.meaningfulTexts, Document.meaningfulTexts, ← Line.map_text_scan,
    ← Line.map_text_scan] at h
  rw [scan, scan, List.forall₂_map_left_iff, List.forall₂_map_right_iff]
  exact (map_eq_map_iff_forall₂.1 h).imp fun _ _ htext =>
    agrees_ofLine (String.toList_injective htext)

end Statement

/-- A fault is reported in the same words wherever its statement stands. -/
theorem Fault.agrees_diagnostic (fault : Fault) {s s' : Statement} (h : s.Agrees s') :
    (fault.diagnostic s).Agrees (fault.diagnostic s') := by
  -- the fault decides which labels there are, and its statement only where they point
  have hlabels : (fault.labels s).map (·.isPrimary) = (fault.labels s').map (·.isPrimary) := by
    cases fault <;> rfl
  exact ⟨rfl, rfl, rfl, h.text, rfl, hlabels⟩

/-! ## Drafts -/

namespace Draft.Agrees

variable {d d' : Draft} {s s' : Statement} (h : d.Agrees d') (hs : s.Agrees s')

include h

theorem refuse_of {fault fault' : Fault}
    (hfault : (fault.diagnostic s).Agrees (fault'.diagnostic s')) :
    (d.refuse s fault).Agrees (d'.refuse s' fault') :=
  { h with diagnostics := List.rel_append h.diagnostics (.cons hfault .nil) }

theorem closeBlock_of : d.closeBlock.Agrees d'.closeBlock := by
  rw [closeBlock_eq, closeBlock_eq]
  have helements : d.closedElements.map Element.withoutPlace =
      d'.closedElements.map Element.withoutPlace := by
    rw [closedElements, closedElements, h.block]
    split
    · exact h.elements
    · rw [Element.map_annotateLast fun _ => rfl, Element.map_annotateLast fun _ => rfl, h.elements]
  exact { h with elements := helements, block := rfl }

theorem map_element?_eq (id : ElementId) :
    (d.diagram.element? id).map Element.withoutPlace =
      (d'.diagram.element? id).map Element.withoutPlace := by
  have hfind := congrArg (List.find? (·.id == id)) h.elements
  rw [List.find?_map, List.find?_map] at hfind
  exact hfind

include hs

/-- An id is taken in both drafts or in neither, though by elements on different lines. -/
theorem addElement_of {e e' : Element} (he : e.withoutPlace = e'.withoutPlace) :
    (d.addElement s e).Agrees (d'.addElement s' e') := by
  have hid : e.id = e'.id := by rw [← e.id_withoutPlace, he, e'.id_withoutPlace]
  have hfind := h.map_element?_eq e'.id
  rw [addElement, addElement, hid]
  cases hfirst : d.diagram.element? e'.id with
  | none =>
      rw [hfirst, Option.map_none, eq_comm, Option.map_eq_none_iff] at hfind
      simp only [hfind]
      have helements : (d.diagram.elements ++ [e]).map Element.withoutPlace =
          (d'.diagram.elements ++ [e']).map Element.withoutPlace := by
        rw [List.map_append, List.map_append, h.elements, List.map_singleton, List.map_singleton,
          he]
      exact { h with elements := helements }
  | some first =>
      rw [hfirst, Option.map_some, eq_comm, Option.map_eq_some_iff] at hfind
      obtain ⟨first', hfirst', -⟩ := hfind
      simp only [hfirst']
      exact h.refuse_of ⟨rfl, rfl, rfl, hs.text, rfl, rfl⟩

theorem openBlock_of (first : String) : (d.openBlock s first).Agrees (d'.openBlock s' first) := by
  have hopened (block : Option (List String)) :
      Agrees { d with block := block } { d' with block := block } := { h with block := rfl }
  have hempty : d.diagram.elements.isEmpty = d'.diagram.elements.isEmpty := by
    rw [← List.isEmpty_map (f := Element.withoutPlace), h.elements, List.isEmpty_map]
  rw [openBlock, openBlock, hempty]
  split
  · exact (hopened _).refuse_of (Fault.agrees_diagnostic _ hs)
  · exact hopened _

theorem declare_of (declaration : Declaration) :
    (d.declare s declaration).Agrees (d'.declare s' declaration) := by
  cases declaration with
  | description text => exact { h with description := rfl }
  | level value => exact { h with level := rfl }
  | element id typeName name cell =>
      exact h.addElement_of hs (by rw [Element.withoutPlace, Element.withoutPlace, hs.line_eq])
  | note first => exact h.openBlock_of hs first
  | slice kind name columns =>
      refine { h with slices := ?_ }
      simp only [declare, List.map_append, h.slices, List.map_singleton, Slice.withoutPlace,
        hs.line_eq]
  | flow direction source target =>
      refine { h with flows := ?_ }
      simp only [declare, List.map_append, h.flows, List.map_singleton, Flow.withoutPlace,
        hs.line_eq]

theorem accept_of : (d.accept s).Agrees (d'.accept s') := by
  rw [accept, accept, hs.declaration_eq]
  split
  · exact h.declare_of hs _
  · exact h.refuse_of (Fault.agrees_diagnostic _ hs)

theorem add_of : (d.add s).Agrees (d'.add s') := by
  rcases closed_or_block d s with hclosed | ⟨lines, hblock, hnone⟩
  · rw [add_of_closed hclosed, add_of_closed (h.block ▸ hs.directive ▸ hclosed)]
    exact h.closeBlock_of.accept_of hs
  · rw [add_of_block hblock hnone, add_of_block (h.block ▸ hblock) (hs.directive ▸ hnone), hs.text]
    exact { h with block := rfl }

end Draft.Agrees

theorem Draft.Agrees.foldl_add_of {d d' : Draft} (h : d.Agrees d') {ss ss' : List Statement}
    (hss : List.Forall₂ Statement.Agrees ss ss') : (ss.foldl add d).Agrees (ss'.foldl add d') := by
  -- both documents are read in step, so the drafts agree after any number of statements
  induction hss generalizing d d' with
  | nil => exact h
  | cons hs _ ih => exact ih (h.add_of hs)

theorem Draft.Agrees.empty : Draft.Agrees {} {} := ⟨rfl, rfl, rfl, rfl, rfl, rfl, .nil⟩

/-! ## Documents -/

namespace Document

variable {source source' : String} (h : meaningfulTexts source = meaningfulTexts source')

include h

theorem agrees_draft :
    ((Statement.scan source).foldl Draft.add {}).closeBlock.Agrees
      ((Statement.scan source').foldl Draft.add {}).closeBlock :=
  (Draft.Agrees.empty.foldl_add_of (Statement.agrees_scan h)).closeBlock_of

theorem withoutPlaces_build_eq :
    (build source).diagram.withoutPlaces = (build source').diagram.withoutPlaces := by
  have hdraft := agrees_draft h
  rw [build, build, ofStatements, ofStatements, Diagram.withoutPlaces, Diagram.withoutPlaces,
    hdraft.description, hdraft.level, hdraft.elements, hdraft.flows, hdraft.slices]

theorem agrees_diagnostics_build :
    List.Forall₂ Diagnostic.Agrees (build source).diagnostics (build source').diagnostics :=
  (agrees_draft h).diagnostics

end Document

end EventModel
