import EventModel.Proofs.Document.Reading
import EventModel.Proofs.Document.WrittenDiagram

/-!
# Reading written diagrams

A diagram that can be written is read back from its document without any complaint, apart from
the lines on which its parts stand (`build_write`).  A draft follows the writing: after the
lines of some parts it shows the diagram made of these parts (`Draft.Shows`).
-/

namespace EventModel

/-! ## Diagrams apart from their lines -/

/-- An element as if it stood on another line. -/
def Element.relocate (line : Line) (e : Element) : Element := { e with origin := line }

/-- A slice as if it stood on another line. -/
def Slice.relocate (line : Line) (s : Slice) : Slice := { s with origin := line }

/-- A flow as if it stood on another line. -/
def Flow.relocate (line : Line) (f : Flow) : Flow := { f with origin := line }

/-- A diagram as if all of it stood on one line. -/
def Diagram.relocate (line : Line) (d : Diagram) : Diagram :=
  { d with
    elements := d.elements.map (·.relocate line)
    slices := d.slices.map (·.relocate line)
    flows := d.flows.map (·.relocate line) }

theorem Diagram.written_relocate (line : Line) (d : Diagram) :
    (d.relocate line).written = d.written := by
  simp only [written, relocate, List.flatMap_map, List.map_map]
  rfl

/-! ## Reading what is written -/

namespace Draft

/-- The draft holds a diagram, apart from lines, and no complaint. -/
structure Holds (d : Draft) (diagram : Diagram) : Prop where
  description : d.diagram.description = diagram.description
  level : d.diagram.level = diagram.level
  elements : ∀ line,
    d.diagram.elements.map (·.relocate line) = diagram.elements.map (·.relocate line)
  flows : ∀ line, d.diagram.flows.map (·.relocate line) = diagram.flows.map (·.relocate line)
  slices : ∀ line, d.diagram.slices.map (·.relocate line) = diagram.slices.map (·.relocate line)
  diagnostics : d.diagnostics = []

/-- The draft would hold a diagram if its block were closed. -/
def Shows (d : Draft) (diagram : Diagram) : Prop := d.closeBlock.Holds diagram

theorem closeBlock_of_none {d : Draft} (h : d.block = none) : d.closeBlock = d := by
  rw [closeBlock, h]

theorem add_of_declaration {d : Draft} {s : Statement} {declaration : Declaration}
    (h : s.declaration = .ok declaration) : d.add s = d.closeBlock.declare s declaration := by
  have hdirective : s.directive.isSome = true := by
    rw [Statement.directive_of_declaration h]
    rfl
  rw [add_of_closed (Or.inr hdirective), accept, h]

/-- Nothing but a note leaves a block open. -/
theorem closeBlock_add {d : Draft} {s : Statement} {declaration : Declaration}
    (h : s.declaration = .ok declaration) (hnote : declaration.directive ≠ .text) :
    (d.add s).closeBlock = d.closeBlock.declare s declaration := by
  have hdirective := Statement.directive_of_declaration h
  have hclosed : d.closeBlock.block = none := by rw [closeBlock_eq]
  have hblock : (d.closeBlock.accept s).block = none := by
    rw [block_accept hclosed, if_neg]
    rw [hdirective, Option.some.injEq]
    exact hnote
  rw [accept, h] at hblock
  rw [add_of_declaration h]
  exact closeBlock_of_none hblock

namespace Shows

variable {d : Draft} {diagram : Diagram} {s : Statement}

theorem empty : ({} : Draft).Shows {} where
  description := rfl
  level := rfl
  elements := fun _ => rfl
  flows := fun _ => rfl
  slices := fun _ => rfl
  diagnostics := rfl

theorem of_declaration {declaration : Declaration} (hs : s.declaration = .ok declaration)
    (hnote : declaration.directive ≠ .text)
    (h : (d.closeBlock.declare s declaration).Holds diagram) : (d.add s).Shows diagram := by
  rw [Shows, closeBlock_add hs hnote]
  exact h

theorem add_description (h : d.Shows diagram) {text : String}
    (hs : s.declaration = .ok (.description text)) :
    (d.add s).Shows { diagram with description := some text } :=
  of_declaration hs (by simp [Declaration.directive]) { h with description := rfl }

theorem add_level (h : d.Shows diagram) {value : UInt32}
    (hs : s.declaration = .ok (.level value)) :
    (d.add s).Shows { diagram with level := some value } :=
  of_declaration hs (by simp [Declaration.directive]) { h with level := rfl }

theorem add_slice (h : d.Shows diagram) {slice : Slice}
    (hs : s.declaration = .ok slice.declaration) :
    (d.add s).Shows { diagram with slices := diagram.slices ++ [slice] } := by
  apply of_declaration hs (by simp [Slice.declaration, Declaration.directive])
  refine { h with slices := ?_ }
  intro line
  rw [Slice.declaration, declare, List.map_append, List.map_append, h.slices line]
  rfl

theorem add_flow (h : d.Shows diagram) {flow : Flow}
    (hs : s.declaration = .ok flow.declaration) :
    (d.add s).Shows { diagram with flows := diagram.flows ++ [flow] } := by
  apply of_declaration hs flow.directive_ne_text
  refine { h with flows := ?_ }
  intro line
  rw [Flow.declaration, declare, List.map_append, List.map_append, h.flows line]
  rfl

/-- An element with a new id is added without its note. -/
theorem add_element (h : d.Shows diagram) {e : Element}
    (hs : s.declaration = .ok e.declaration) (hid : e.id ∉ diagram.elements.map Element.id) :
    (d.add s).Shows { diagram with elements := diagram.elements ++ [e.withoutNote] } := by
  have hids : d.closeBlock.diagram.elements.map Element.id =
      diagram.elements.map Element.id := by
    have hmap := congrArg (List.map Element.id) (h.elements s.line)
    rw [List.map_map, List.map_map] at hmap
    exact hmap
  have hfree : d.closeBlock.diagram.element? e.id = none := by
    rw [Diagram.element?, List.find?_eq_none]
    intro f hf hsame
    rw [beq_iff_eq] at hsame
    apply hid
    rw [← hids, ← hsame]
    exact List.mem_map_of_mem hf
  have hadd : d.closeBlock.declare s e.declaration =
      { d.closeBlock with diagram := { d.closeBlock.diagram with
          elements := d.closeBlock.diagram.elements ++ [e.withoutNote.relocate s.line] } } := by
    rw [Element.declaration, declare, addElement, hfree]
    rfl
  apply of_declaration hs (by simp [Element.declaration, Declaration.directive])
  rw [hadd]
  refine { h with elements := ?_ }
  intro line
  rw [List.map_append, List.map_append, h.elements line]
  rfl

end Shows

/-! ## Reading notes -/

theorem add_note {d : Draft} {s : Statement} {first : String}
    (hs : s.declaration = .ok (.note first)) (hfirst : first ≠ "")
    (hne : d.closeBlock.diagram.elements ≠ []) :
    d.add s = { d.closeBlock with block := some [first] } := by
  have helements : d.closeBlock.diagram.elements.isEmpty = false := by simpa using hne
  have htext : first.isEmpty = false := by simpa using hfirst
  rw [add_of_declaration hs, declare, openBlock]
  simp [helements, htext]

theorem foldl_add_unknown {d : Draft} {lines : List String} (ss : List Statement)
    (hblock : d.block = some lines) (hs : ∀ s ∈ ss, s.directive = none) :
    ss.foldl add d = { d with block := some (lines ++ ss.map (·.line.text)) } := by
  induction ss generalizing d lines with
  | nil =>
      rw [List.map_nil, List.append_nil, ← hblock]
      rfl
  | cons s ss ih =>
      have hfirst := hs s List.mem_cons_self
      rw [List.foldl_cons, add_of_block hblock hfirst, ih rfl fun t ht =>
        hs t (List.mem_cons_of_mem s ht), List.map_cons, List.append_assoc,
        List.singleton_append]

theorem closeBlock_of_note {d : Draft} {lines : List String} {note : Note}
    (hblock : d.block = some lines) (hnote : Note.ofLines? lines = some note) :
    d.closeBlock =
      { d with
        diagram := { d.diagram with
          elements := Element.annotateLast note d.diagram.elements }
        block := none } := by
  rw [closeBlock_eq, closedElements, hblock, Option.bind_some, hnote]

end Draft

theorem Note.intercalate_lines (note : Note) : "\n".intercalate note.lines = note.text := by
  have hmap : note.lines.map String.toList = note.text.toList.splitOn '\n' := by
    rw [lines, List.map_map]
    conv => rhs; rw [← List.map_id (note.text.toList.splitOn '\n')]
    exact List.map_congr_left fun l _ => String.toList_ofList
  apply String.toList_injective
  rw [String.toList_intercalate, hmap]
  exact List.intercalate_splitOn '\n'

theorem Note.ofLines?_lines {note : Note} (h : note.text ≠ "") :
    ofLines? note.lines = some note := by
  have htext : note.text.isEmpty = false := by simpa using h
  rw [ofLines?, intercalate_lines, htext]
  rfl

theorem Note.text_ne_of_isWritable {note : Note} (h : note.IsWritable) : note.text ≠ "" := by
  intro htext
  have hlines : note.lines = [""] := by
    rw [lines, htext]
    rfl
  exact (h.lines "" (by rw [hlines]; exact List.mem_cons_self)).1 rfl

theorem Statement.directive_ofLine_of_split? {line : Line}
    (h : Directive.split? line.text.toList = none) : (ofLine line).directive = none := by
  rw [ofLine, h]

namespace Draft.Shows

variable {d : Draft} {diagram : Diagram}

/-- The lines of a note give it to the element added last. -/
theorem foldl_add_note {e : Element}
    (h : d.Shows { diagram with elements := diagram.elements ++ [e.withoutNote] }) {note : Note}
    (hnote : note.IsWritable) {lines : List Line}
    (hlines : lines.map (·.text) = note.written) :
    ((lines.map Statement.ofLine).foldl add d).Shows
      { diagram with elements := diagram.elements ++ [{ e with note := some note }] } := by
  obtain ⟨first, others, hcons⟩ : ∃ first others, note.lines = first :: others := by
    apply List.exists_cons_of_ne_nil
    rw [Note.lines, ne_eq, List.map_eq_nil_iff]
    exact List.splitOn_ne_nil _ _
  rw [Note.written, hcons] at hlines
  obtain ⟨l, ls, rfl, hl, hls⟩ := List.map_eq_cons_iff.1 hlines
  have hfirst : Declaration.IsNoteLine first :=
    Note.isNoteLine_of_mem_lines hnote (by rw [hcons]; exact List.mem_cons_self)
  have hne : d.closeBlock.diagram.elements ≠ [] := by
    intro hnil
    have helements := h.elements l
    rw [hnil, List.map_append] at helements
    exact absurd helements (by simp)
  have hunknown : ∀ s ∈ ls.map Statement.ofLine, s.directive = none := by
    intro s hs
    obtain ⟨k, hk, rfl⟩ := List.mem_map.1 hs
    apply Statement.directive_ofLine_of_split?
    refine (hnote.others k.text ?_).2
    rw [hcons, List.tail_cons, ← hls]
    exact List.mem_map_of_mem hk
  have hblock : [first] ++ (ls.map Statement.ofLine).map (·.line.text) = note.lines := by
    have htexts : (ls.map Statement.ofLine).map (·.line.text) = others := by
      rw [List.map_map, ← hls]
      apply List.map_congr_left
      intro k _
      exact congrArg Line.text (Statement.line_ofLine k)
    rw [htexts, hcons, List.singleton_append]
  have hdeclaration : (Statement.ofLine l).declaration = .ok (.note first) :=
    Statement.declaration_ofLine hfirst hl
  -- the first line opens a block, the others join it, and closing it makes them the note
  rw [List.map_cons, List.foldl_cons, add_note hdeclaration hfirst.1 hne,
    foldl_add_unknown _ rfl hunknown, hblock]
  have hclosed := closeBlock_of_note (d := { d.closeBlock with block := some note.lines }) rfl
    (Note.ofLines?_lines (Note.text_ne_of_isWritable hnote))
  rw [Shows, hclosed]
  refine { h with elements := ?_ }
  intro line
  rw [Element.map_annotateLast fun _ => rfl, h.elements line, List.map_append, List.map_singleton,
    Element.annotateLast_concat, List.map_append]
  rfl

/-- The lines of an element add it as it was written. -/
theorem foldl_add_element (h : d.Shows diagram) {e : Element} (he : e.IsWritable)
    (hid : e.id ∉ diagram.elements.map Element.id) {lines : List Line}
    (hlines : lines.map (·.text) = e.written) :
    ((lines.map Statement.ofLine).foldl add d).Shows
      { diagram with elements := diagram.elements ++ [e] } := by
  rw [Element.written] at hlines
  obtain ⟨l, ls, rfl, hl, hls⟩ := List.map_eq_cons_iff.1 hlines
  have hadd := h.add_element (Statement.declaration_ofLine he.declaration hl) hid
  rw [List.map_cons, List.foldl_cons]
  cases hnote : e.note with
  | none =>
      rw [hnote] at hls
      rw [List.map_eq_nil_iff.1 hls]
      have hsame : e.withoutNote = e := by
        rw [Element.withoutNote, ← hnote]
      rw [hsame] at hadd
      exact hadd
  | some note =>
      rw [hnote, Option.toList_some, List.flatMap_singleton] at hls
      have hsame : { e with note := some note } = e := by rw [← hnote]
      have hread := hadd.foldl_add_note (he.note note hnote) hls
      rw [hsame] at hread
      exact hread

theorem foldl_add_elements (h : d.Shows diagram) {es : List Element}
    (hes : ∀ e ∈ es, e.IsWritable)
    (hids : ((diagram.elements ++ es).map Element.id).Nodup) {lines : List Line}
    (hlines : lines.map (·.text) = es.flatMap Element.written) :
    ((lines.map Statement.ofLine).foldl add d).Shows
      { diagram with elements := diagram.elements ++ es } := by
  induction es generalizing d diagram lines with
  | nil =>
      rw [List.map_eq_nil_iff.1 hlines, List.append_nil]
      exact h
  | cons e es ih =>
      rw [List.flatMap_cons] at hlines
      obtain ⟨front, back, rfl, hfront, hback⟩ := List.map_eq_append_iff.1 hlines
      have hid : e.id ∉ diagram.elements.map Element.id := by
        rw [List.map_append, List.nodup_append] at hids
        exact fun hmem => hids.2.2 _ hmem _ (by simp) rfl
      have hadd := h.foldl_add_element (hes e List.mem_cons_self) hid hfront
      rw [List.append_cons] at hids ⊢
      rw [List.map_append, List.foldl_append]
      exact ih hadd (fun f hf => hes f (List.mem_cons_of_mem e hf)) hids hback

theorem foldl_add_slices (h : d.Shows diagram) {slices : List Slice}
    (hslices : ∀ s ∈ slices, s.declaration.IsWritable) {lines : List Line}
    (hlines : lines.map (·.text) = slices.map fun s => toString s.declaration) :
    ((lines.map Statement.ofLine).foldl add d).Shows
      { diagram with slices := diagram.slices ++ slices } := by
  induction slices generalizing d diagram lines with
  | nil =>
      rw [List.map_eq_nil_iff.1 hlines, List.append_nil]
      exact h
  | cons s slices ih =>
      obtain ⟨l, ls, rfl, hl, hls⟩ := List.map_eq_cons_iff.1 hlines
      have hadd :=
        h.add_slice (Statement.declaration_ofLine (hslices s List.mem_cons_self) hl)
      rw [List.append_cons, List.map_cons, List.foldl_cons]
      exact ih hadd (fun t ht => hslices t (List.mem_cons_of_mem s ht)) hls

theorem foldl_add_flows (h : d.Shows diagram) {flows : List Flow} {lines : List Line}
    (hlines : lines.map (·.text) = flows.map toString) :
    ((lines.map Statement.ofLine).foldl add d).Shows
      { diagram with flows := diagram.flows ++ flows } := by
  induction flows generalizing d diagram lines with
  | nil =>
      rw [List.map_eq_nil_iff.1 hlines, List.append_nil]
      exact h
  | cons f flows ih =>
      obtain ⟨l, ls, rfl, hl, hls⟩ := List.map_eq_cons_iff.1 hlines
      rw [← Flow.toString_declaration] at hl
      have hadd := h.add_flow (Statement.declaration_ofLine trivial hl)
      rw [List.append_cons, List.map_cons, List.foldl_cons]
      exact ih hadd hls

theorem foldl_add_description (h : d.Shows diagram) {description : Option String}
    (hdescription : ∀ text ∈ description, (Declaration.description text).IsWritable)
    (hnone : diagram.description = none) {lines : List Line}
    (hlines : lines.map (·.text) =
      description.toList.map fun text => toString (Declaration.description text)) :
    ((lines.map Statement.ofLine).foldl add d).Shows
      { diagram with description := description } := by
  cases description with
  | none =>
      rw [List.map_eq_nil_iff.1 hlines, ← hnone]
      exact h
  | some text =>
      rw [Option.toList_some, List.map_singleton, List.map_eq_singleton_iff] at hlines
      obtain ⟨l, rfl, hl⟩ := hlines
      exact h.add_description (Statement.declaration_ofLine (hdescription text rfl) hl)

theorem foldl_add_level (h : d.Shows diagram) {level : Option UInt32}
    (hnone : diagram.level = none) {lines : List Line}
    (hlines : lines.map (·.text) =
      level.toList.map fun value => toString (Declaration.level value)) :
    ((lines.map Statement.ofLine).foldl add d).Shows { diagram with level := level } := by
  cases level with
  | none =>
      rw [List.map_eq_nil_iff.1 hlines, ← hnone]
      exact h
  | some value =>
      rw [Option.toList_some, List.map_singleton, List.map_eq_singleton_iff] at hlines
      obtain ⟨l, rfl, hl⟩ := hlines
      exact h.add_level (Statement.declaration_ofLine trivial hl)

/-- The lines of a diagram add it as it was written. -/
theorem foldl_add_written {diagram : Diagram} (h : diagram.IsWritable) {lines : List Line}
    (hlines : lines.map (·.text) = diagram.written) :
    ((lines.map Statement.ofLine).foldl add {}).Shows diagram := by
  rw [Diagram.written] at hlines
  obtain ⟨front, flows, rfl, hfront, hflows⟩ := List.map_eq_append_iff.1 hlines
  obtain ⟨front, slices, rfl, hfront, hslices⟩ := List.map_eq_append_iff.1 hfront
  obtain ⟨front, elements, rfl, hfront, helements⟩ := List.map_eq_append_iff.1 hfront
  obtain ⟨description, level, rfl, hdescription, hlevel⟩ := List.map_eq_append_iff.1 hfront
  simp only [List.map_append, List.foldl_append]
  have hstart := empty.foldl_add_description h.description rfl hdescription
  have hhead := hstart.foldl_add_level rfl hlevel
  have hbody := hhead.foldl_add_elements h.elements h.ids helements
  exact (hbody.foldl_add_slices h.slices hslices).foldl_add_flows hflows

end Draft.Shows

namespace Document

theorem ofStatements_of_shows {ss : List Statement} {d : Diagram}
    (h : (ss.foldl Draft.add {}).Shows d) :
    (ofStatements ss).diagnostics = [] ∧
      ∀ line, (ofStatements ss).diagram.relocate line = d.relocate line := by
  refine ⟨h.diagnostics, ?_⟩
  intro line
  rw [ofStatements, Diagram.relocate, Diagram.relocate, h.description, h.level, h.elements line,
    h.flows line, h.slices line]

/-- **A written diagram is read back.**  The document that is written for a diagram is read
without any complaint as this diagram, apart from the lines on which its parts stand, and the
same document is written for what has been read. -/
theorem build_write {d : Diagram} (h : d.IsWritable) :
    (build d.write).diagnostics = [] ∧
      (∀ line, (build d.write).diagram.relocate line = d.relocate line) ∧
      (build d.write).diagram.write = d.write := by
  obtain ⟨hdiagnostics, hdiagram⟩ := ofStatements_of_shows
    (Draft.Shows.foldl_add_written h (Diagram.map_text_scan_write h))
  refine ⟨hdiagnostics, hdiagram, ?_⟩
  have hwritten : (build d.write).diagram.written = d.written := by
    rw [← Diagram.written_relocate ⟨0, "", ⟨0, 0, by decide⟩⟩, build, Statement.scan, hdiagram,
      Diagram.written_relocate]
  rw [Diagram.write, hwritten, ← Diagram.write]

theorem build_write_delicate :
    delicateDiagram.IsWritable ∧
      (build delicateDiagram.write).diagnostics = [] ∧
      (∀ line, (build delicateDiagram.write).diagram.relocate line =
        delicateDiagram.relocate line) ∧
      (build delicateDiagram.write).diagram.write = delicateDiagram.write := by
  have hwritable : delicateDiagram.IsWritable := by decide +kernel
  exact ⟨hwritable, build_write hwritable⟩

end Document

end EventModel
