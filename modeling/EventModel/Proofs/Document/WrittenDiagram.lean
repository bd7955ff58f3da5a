import EventModel.Proofs.Document.ReadingBack
import EventModel.Proofs.Source.Scanning

/-!
# Writing diagrams

A diagram is written as a document, one declaration to a line and notes line by line
(`Diagram.write`).  If all of it can be written, the lines of the document are scanned as they
were written (`map_text_scan_write`).
-/

namespace EventModel

/-! ## Writing a diagram -/

/-- The lines of a note. -/
def Note.lines (note : Note) : List String :=
  (note.text.toList.splitOn '\n').map String.ofList

/-- A note as lines of a document: a `TEXT` line, and the other lines as they are. -/
def Note.written (note : Note) : List String :=
  match note.lines with
  | [] => []
  | first :: others => toString (Declaration.note first) :: others

/-- The declaration of an element. -/
def Element.declaration (e : Element) : Declaration := .element e.id e.typeName e.name e.cell

/-- An element as lines of a document, its note after it. -/
def Element.written (e : Element) : List String :=
  toString e.declaration :: e.note.toList.flatMap Note.written

/-- The declaration of a slice. -/
def Slice.declaration (s : Slice) : Declaration := .slice s.kind s.name s.columns

/-- The declaration of a flow. -/
def Flow.declaration (f : Flow) : Declaration := .flow f.direction f.source f.target

namespace Diagram

/-- A diagram as lines of a document. -/
def written (d : Diagram) : List String :=
  d.description.toList.map (fun text => toString (Declaration.description text)) ++
    d.level.toList.map (fun value => toString (Declaration.level value)) ++
    d.elements.flatMap Element.written ++
    d.slices.map (fun s => toString s.declaration) ++
    d.flows.map toString

/-- A diagram as a document. -/
def write (d : Diagram) : String := String.join (d.written.map (· ++ "\n"))

end Diagram

/-- A small diagram with much that is delicate to write: numbers at their limits, quotes,
commas and signs of other places in its texts. -/
def delicateDiagram : Diagram where
  description := some "the \"old\" shop, #1"
  level := some 4294967295
  elements :=
    [{ id := 4294967295, typeName := "read_model", name := " a, b; c: d", cell := ⟨-2147483648, 7⟩,
       origin := ⟨0, "", ⟨0, 0, by decide⟩⟩, note := some ⟨"# first\nTEXT is text\nowner: us"⟩ },
     { id := 0, typeName := "", name := "", cell := ⟨0, -1⟩, origin := ⟨0, "", ⟨0, 0, by decide⟩⟩ }]
  slices :=
    [{ kind := .viewState, name := "SLICE: x", columns := .ofList [2147483647, -2147483648],
       origin := ⟨0, "", ⟨0, 0, by decide⟩⟩ }]
  flows := [⟨0, 4294967295, .backward, ⟨0, "", ⟨0, 0, by decide⟩⟩⟩]

example :
    delicateDiagram.written =
      ["DESCRIPTION: \"the \"old\" shop, #1\"", "LEVEL: 4294967295",
       "ELEMENT: 4294967295, read_model, \" a, b; c: d\", 7;-2147483648", "TEXT: # first",
       "TEXT is text", "owner: us", "ELEMENT: 0, , \"\", -1;0",
       "SLICE: VIEW_STATE, \"SLICE: x\", -2147483648, 2147483647",
       "BACK_FLOW: 0 to 4294967295"] := by
  decide +kernel

/-! ## What can be written -/

/-- The first line of a note follows its keyword; the others stand alone, and must not be taken
for comments or directives. -/
structure Note.IsWritable (note : Note) : Prop where
  lines : ∀ line ∈ note.lines, line ≠ "" ∧ Text.trim line.toList = line.toList
  others : ∀ line ∈ note.lines.tail,
    line.toList.head? ≠ some '#' ∧ Directive.split? line.toList = none

/-- An element can be written if its declaration can, and its note. -/
structure Element.IsWritable (e : Element) : Prop where
  declaration : e.declaration.IsWritable
  note : ∀ note ∈ e.note, note.IsWritable

/-- A diagram can be written if all its parts can and no id is used twice. -/
structure Diagram.IsWritable (d : Diagram) : Prop where
  ids : (d.elements.map Element.id).Nodup
  description : ∀ text ∈ d.description, (Declaration.description text).IsWritable
  elements : ∀ e ∈ d.elements, e.IsWritable
  slices : ∀ s ∈ d.slices, s.declaration.IsWritable

instance : DecidablePred Note.IsWritable := fun note =>
  decidable_of_iff
    ((∀ line ∈ note.lines, line ≠ "" ∧ Text.trim line.toList = line.toList) ∧
      ∀ line ∈ note.lines.tail,
        line.toList.head? ≠ some '#' ∧ Directive.split? line.toList = none)
    ⟨fun h => ⟨h.1, h.2⟩, fun h => ⟨h.lines, h.others⟩⟩

instance : DecidablePred Element.IsWritable := fun e =>
  decidable_of_iff (e.declaration.IsWritable ∧ ∀ note ∈ e.note, note.IsWritable)
    ⟨fun h => ⟨h.1, h.2⟩, fun h => ⟨h.declaration, h.note⟩⟩

instance : DecidablePred Diagram.IsWritable := fun d =>
  decidable_of_iff
    ((d.elements.map Element.id).Nodup ∧
      (∀ text ∈ d.description, (Declaration.description text).IsWritable) ∧
      (∀ e ∈ d.elements, e.IsWritable) ∧ ∀ s ∈ d.slices, s.declaration.IsWritable)
    ⟨fun h => ⟨h.1, h.2.1, h.2.2.1, h.2.2.2⟩,
      fun h => ⟨h.ids, h.description, h.elements, h.slices⟩⟩

/-! ## Scanning what is written -/

/-- A line that comes out of a document as it was put in. -/
def IsScanned (line : String) : Prop :=
  '\n' ∉ line.toList ∧ Text.trim line.toList = line.toList ∧
    Line.isMeaningful line.toList = true

theorem Declaration.isScanned_toString {d : Declaration} (h : d.IsWritable) :
    IsScanned (toString d) :=
  ⟨newline_notMem_toString h, trim_toString h⟩

theorem Flow.toString_declaration (f : Flow) : toString f.declaration = toString f := by
  have hpayload : f.declaration.payload = s!"{f.source} to {f.target}" :=
    String.intercalate_singleton
  change f.declaration.directive.keyword ++ ": " ++ f.declaration.payload = _
  rw [hpayload]
  obtain ⟨source, target, direction, origin⟩ := f
  cases direction <;> simp [Flow.declaration, Declaration.directive, FlowDirection.directive,
    Directive.keyword, toString, Flow.toString, FlowDirection.keyword, String.append_assoc]

theorem Flow.directive_ne_text (f : Flow) : f.declaration.directive ≠ .text := by
  rw [declaration, Declaration.directive]
  cases f.direction <;> decide

theorem newline_notMem_of_mem_lines {note : Note} {line : String} (h : line ∈ note.lines) :
    '\n' ∉ line.toList := by
  obtain ⟨piece, hpiece, rfl⟩ := List.mem_map.1 h
  rw [String.toList_ofList]
  exact newline_notMem_of_mem_splitOn hpiece

theorem Note.isNoteLine_of_mem_lines {note : Note} (h : note.IsWritable) {line : String}
    (hline : line ∈ note.lines) : Declaration.IsNoteLine line :=
  ⟨(h.lines line hline).1, (h.lines line hline).2, newline_notMem_of_mem_lines hline⟩

theorem Line.isMeaningful_of_ne {cs : List Char} (hne : cs ≠ []) (hcomment : cs.head? ≠ some '#') :
    isMeaningful cs = true := by
  cases cs with
  | nil => exact absurd rfl hne
  | cons c cs =>
      rw [isMeaningful, bne_iff_ne]
      intro hc
      exact hcomment (by rw [hc, List.head?_cons])

theorem Note.isScanned_of_mem_tail {note : Note} (h : note.IsWritable) {line : String}
    (hline : line ∈ note.lines.tail) : IsScanned line := by
  obtain ⟨hne, htrim, hnewline⟩ :=
    Note.isNoteLine_of_mem_lines h (List.mem_of_mem_tail hline)
  refine ⟨hnewline, htrim, Line.isMeaningful_of_ne ?_ (h.others line hline).1⟩
  intro hnil
  exact hne (String.toList_eq_nil_iff.1 hnil)

theorem Note.isScanned_of_mem_written {note : Note} (h : note.IsWritable) {line : String}
    (hline : line ∈ note.written) : IsScanned line := by
  rw [Note.written] at hline
  split at hline
  · exact absurd hline (by simp)
  · rename_i first others hlines
    rcases List.mem_cons.1 hline with rfl | hline
    · apply Declaration.isScanned_toString
      exact Note.isNoteLine_of_mem_lines h (by rw [hlines]; exact List.mem_cons_self)
    · exact Note.isScanned_of_mem_tail h (by rw [hlines]; exact hline)

namespace Diagram

theorem isScanned_of_mem_written {d : Diagram} (h : d.IsWritable) {line : String}
    (hline : line ∈ d.written) : IsScanned line := by
  simp only [written, List.mem_append, List.mem_map, List.mem_flatMap, Option.mem_toList]
    at hline
  rcases hline with (((⟨text, htext, rfl⟩ | ⟨value, -, rfl⟩) | ⟨e, he, hline⟩) |
    ⟨s, hs, rfl⟩) | ⟨f, -, rfl⟩
  · exact Declaration.isScanned_toString (h.description text htext)
  · exact Declaration.isScanned_toString trivial
  · rcases List.mem_cons.1 hline with rfl | hline
    · exact Declaration.isScanned_toString (h.elements e he).declaration
    · obtain ⟨note, hnote, hline⟩ := List.mem_flatMap.1 hline
      rw [Option.mem_toList] at hnote
      exact Note.isScanned_of_mem_written ((h.elements e he).note note hnote) hline
  · exact Declaration.isScanned_toString (h.slices s hs)
  · rw [← Flow.toString_declaration]
    exact Declaration.isScanned_toString trivial

/-- The lines that are written are the lines that are scanned. -/
theorem map_text_scan_write {d : Diagram} (h : d.IsWritable) :
    (Line.scan d.write).map (·.text) = d.written := by
  have hscanned : ∀ l ∈ d.written.map String.toList,
      '\n' ∉ l ∧ Text.trim l = l ∧ Line.isMeaningful l = true := by
    intro l hl
    obtain ⟨line, hline, rfl⟩ := List.mem_map.1 hl
    exact isScanned_of_mem_written h hline
  have htrim : (d.written.map String.toList).map Text.trim = d.written.map String.toList := by
    conv => rhs; rw [← List.map_id (d.written.map String.toList)]
    exact List.map_congr_left fun l hl => (hscanned l hl).2.1
  have hmeaningful : (d.written.map String.toList).filter Line.isMeaningful =
      d.written.map String.toList := List.filter_eq_self.2 fun l hl => (hscanned l hl).2.2
  -- the last line feed leaves an empty piece behind, which is no line
  have hlines : (Line.scan d.write).map (·.text.toList) = d.written.map String.toList :=
    calc (Line.scan d.write).map (·.text.toList)
        = ((d.write.toList.splitOn '\n').map Text.trim).filter Line.isMeaningful :=
          Line.map_text_scan d.write
      _ = ((d.written.map String.toList ++ [[]]).map Text.trim).filter Line.isMeaningful := by
          rw [write, splitOn_join_lines fun l hl =>
            (hscanned l.toList (List.mem_map_of_mem hl)).1]
      _ = (d.written.map String.toList).filter Line.isMeaningful ++ [] := by
          rw [List.map_append, htrim, List.filter_append]
          rfl
      _ = d.written.map String.toList := by rw [hmeaningful, List.append_nil]
  have hinjective : Function.Injective String.toList := fun _ _ => String.toList_injective
  apply List.map_injective_iff.2 hinjective
  rw [List.map_map]
  exact hlines

end Diagram

end EventModel
