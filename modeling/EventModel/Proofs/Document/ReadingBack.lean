import EventModel.Proofs.Document.Coordinates
import EventModel.Proofs.Document.Endpoints
import Mathlib.Data.List.Sort

/-!
# Reading written declarations

A written line names its directive and holds its payload, and the payload is read as the
declaration that was written (`read_payload`, `declaration_ofLine`).
-/

namespace EventModel

/-! ## Columns and kinds of slices -/

theorem ColumnSet.ofList_toList (s : ColumnSet) : ofList s.toList = s := by
  have hlist : (ofList s.toList).toList = s.toList := by
    have hirrefl : Std.Irrefl fun a b : Int32 => a < b := ⟨fun _ => Int32.lt_irrefl⟩
    have hantisymm : Std.Antisymm fun a b : Int32 => a < b :=
      ⟨fun _ _ hlt hgt => absurd (Int32.lt_trans hlt hgt) Int32.lt_irrefl⟩
    exact (ofList s.toList).ascending.eq_of_mem_iff s.ascending fun _ => mem_toList_ofList
  cases h : ofList s.toList with
  | mk columns ascending =>
      rw [h] at hlist
      cases s
      simp_all

theorem SliceKind.ofText?_keyword (kind : SliceKind) : ofText? kind.keyword = some kind := by
  cases kind <;> decide

namespace Declaration

open Document

/-! ## Fields -/

theorem isPiece_of_numerals {text : String}
    (h : ∀ c ∈ text.toList, Text.isNumeralChar c = true ∨ c = ';') : IsPiece text.toList := by
  apply isPiece_of_plain
  · intro hcomma
    exact absurd (h _ hcomma) (by decide)
  · intro hquote
    exact absurd (h _ hquote) (by decide)

theorem isPiece_id (id : ElementId) : IsPiece (toString id).toList :=
  isPiece_of_numerals fun _ hc => Or.inl (isNumeralChar_of_mem_id hc)

theorem isPiece_column (column : Int32) : IsPiece (toString column).toList :=
  isPiece_of_numerals fun _ hc => Or.inl (isNumeralChar_of_mem_column hc)

theorem isPiece_quoteName {name : String} (h : IsName name) :
    IsPiece (quoteName name).toList := by
  rw [toList_quoteName]
  exact isPiece_quoted h.1

theorem isPiece_of_mem_written {d : Declaration} (h : d.IsWritable)
    (hd : d.directive = .element ∨ d.directive = .slice) {field : String}
    (hfield : field ∈ d.written) : IsPiece field.toList := by
  cases d with
  | element id typeName name cell =>
      simp only [written, List.mem_cons, List.not_mem_nil, or_false] at hfield
      rcases hfield with rfl | rfl | rfl | rfl
      · exact isPiece_id id
      · exact isPiece_of_plain h.1.2.1 h.1.2.2.1
      · exact isPiece_quoteName h.2
      · exact isPiece_of_numerals fun c hc => isNumeralChar_of_mem_cell hc
  | slice kind name columns =>
      simp only [written, List.mem_cons, List.mem_map] at hfield
      rcases hfield with rfl | rfl | ⟨column, -, rfl⟩
      · cases kind <;> exact isPiece_of_plain (by decide) (by decide)
      · exact isPiece_quoteName h.1
      · exact isPiece_column column
  | flow direction source target =>
      cases direction <;> exact absurd hd (by simp [directive, FlowDirection.directive])
  | _ => exact absurd hd (by simp [directive])

/-- The payload of a written declaration has the fields that were written. -/
theorem map_text_fields_payload {d : Declaration} (h : d.IsWritable)
    (hd : d.directive = .element ∨ d.directive = .slice) :
    (fields (' ' :: d.payload.toList)).map (·.text) = d.written.map String.toList := by
  rw [toList_payload]
  apply map_text_fields_intercalate
  · obtain ⟨front, last, hwritten, -⟩ := exists_last_written h
    simp [hwritten]
  · intro p hp
    obtain ⟨field, hfield, rfl⟩ := List.mem_map.1 hp
    exact ⟨isPiece_of_mem_written h hd hfield, (isField_of_mem_written h hfield).1⟩

/-! ## Payloads -/

theorem trim_payload {d : Declaration} (h : d.IsWritable) {field : String}
    (hd : d.written = [field]) : Text.trim (' ' :: d.payload.toList) = field.toList := by
  have hpayload : d.payload = field := by
    rw [payload, hd]
    exact String.intercalate_singleton
  have hfield : IsField field := isField_of_mem_written h (by simp [hd])
  rw [hpayload, Text.trim_cons_of_isBlank (by decide), hfield.1]

theorem quotedText?_quoteName {text : String} (h : text ≠ "") :
    quotedText? (quoteName text).toList = some text := by
  have hne : text.toList ≠ [] := fun hnil => h (String.toList_eq_nil_iff.1 hnil)
  rw [toList_quoteName, quotedText?, List.getLast?_concat, List.dropLast_concat,
    if_pos ⟨rfl, hne⟩, String.ofList_toList]

theorem endpoints?_written (source target : ElementId) :
    endpoints? (' ' :: (s!"{source} to {target}").toList) = some (source, target) := by
  apply endpoints?_of_writesEndpoints
  refine ⟨[' '], [' '], [' '], [], by decide, by decide, by decide, by decide, ?_⟩
  rw [toList_written_flow]
  simp

/-- The text of the coordinates of an element, from the texts of its fourth field and those that
follow. -/
def coordinateText (first : List Char) (others : List (List Char)) : List Char :=
  [','].intercalate (if first.any Cell.isSeparator then [first] else first :: others)

theorem intercalate_coordinateFields (first : Text.Fragment) (others : List Text.Fragment) :
    [','].intercalate ((coordinateFields first others).map (·.text)) =
      coordinateText first.text (others.map (·.text)) := by
  rw [coordinateText, coordinateFields]
  split <;> rfl

theorem readCell_of_read {first : Text.Fragment} {others : List Text.Fragment} {cell : Cell}
    (h : Cell.read (coordinateText first.text (others.map (·.text))) = .ok cell) :
    readCell first others = .ok cell := by
  rw [readCell, intercalate_coordinateFields]
  simp only [h]

theorem exists_fault_of_readCell {first : Text.Fragment} {others : List Text.Fragment}
    (h : ∀ cell, Cell.read (coordinateText first.text (others.map (·.text))) ≠ .ok cell) :
    ∃ fault, readCell first others = .error fault ∧
      (fault.code = .coordinateFormat ∨ fault.code = .nonNumericCoordinates) := by
  rw [readCell, intercalate_coordinateFields]
  cases hread : Cell.read (coordinateText first.text (others.map (·.text))) with
  | ok cell => exact absurd hread (h cell)
  | error fault =>
      cases fault with
      | format => exact ⟨_, rfl, Or.inl rfl⟩
      | nonNumeric => exact ⟨_, rfl, Or.inr rfl⟩

/-- Of the fields of an element, only the coordinates are left to be read. -/
theorem readElement_of_fields {payload : List Char} {id : ElementId}
    {typeText nameText first : List Char} {others : List (List Char)}
    (h : (fields payload).map (·.text) =
      (toString id).toList :: typeText :: nameText :: first :: others) :
    ∃ firstField otherFields, firstField.text = first ∧ otherFields.map (·.text) = others ∧
      readElement payload = (readCell firstField otherFields).map fun cell =>
        .element id (String.ofList typeText) (String.ofList (unquote nameText)) cell := by
  simp only [List.map_eq_cons_iff] at h
  obtain ⟨f, _, hlist, hf, g, _, rfl, hg, k, _, rfl, hk, c, cs, rfl, hc, hcs⟩ := h
  refine ⟨c, cs, hc, hcs, ?_⟩
  rw [readElement, hlist]
  simp only [hf, hg, hk, Text.unsigned?_toString]

theorem readElement_payload {id : ElementId} {typeName name : String} {cell : Cell}
    (h : (element id typeName name cell).IsWritable) :
    readElement (' ' :: (element id typeName name cell).payload.toList) =
      .ok (element id typeName name cell) := by
  obtain ⟨first, others, hfirst, hothers, hread⟩ :=
    readElement_of_fields (map_text_fields_payload h (Or.inl rfl))
  have hsep : first.text.any Cell.isSeparator = true := by
    rw [hfirst, toList_toString_cell]
    simp [Cell.isSeparator]
  have hcell : readCell first others = .ok cell := by
    apply readCell_of_read
    rw [coordinateText, if_pos hsep, List.intercalate_singleton, hfirst, Cell.read_toString]
  rw [hread, hcell, String.ofList_toList, toList_quoteName, unquote_quoted, String.ofList_toList]
  rfl

theorem filterMap_signed?_columns {others : List Text.Fragment} {columns : List Int32}
    (h : others.map (·.text) = columns.map fun column => (toString column).toList) :
    (others.filterMap fun field => Text.signed? field.text) = columns := by
  have hcomp : (others.filterMap fun field => Text.signed? field.text) =
      (others.map (·.text)).filterMap Text.signed? := by
    rw [List.filterMap_map]
    rfl
  rw [hcomp, h, List.filterMap_map]
  have hsigned : (Text.signed? ∘ fun column : Int32 => (toString column).toList) = some :=
    funext Text.signed?_toString
  rw [hsigned, List.filterMap_some]

theorem readSlice_payload {kind : SliceKind} {name : String} {columns : ColumnSet}
    (h : (slice kind name columns).IsWritable) :
    readSlice (' ' :: (slice kind name columns).payload.toList) =
      .ok (slice kind name columns) := by
  have hfields := map_text_fields_payload h (Or.inr rfl)
  simp only [written, List.map_cons, List.map_map, List.map_eq_cons_iff] at hfields
  obtain ⟨f, _, hlist, hf, g, others, rfl, hg, hothers⟩ := hfields
  have hcolumns : (others.filterMap fun field => Text.signed? field.text) = columns.toList :=
    filterMap_signed?_columns hothers
  cases others with
  | nil => exact absurd hcolumns.symm h.2
  | cons first others =>
      rw [readSlice, hlist]
      simp only [hf, String.ofList_toList, SliceKind.ofText?_keyword, hcolumns, hg,
        toList_quoteName, unquote_quoted]
      split
      · rename_i hnil
        exact absurd hnil h.2
      · rw [ColumnSet.ofList_toList]

/-- A written payload is read as what was written. -/
theorem read_payload {d : Declaration} (h : d.IsWritable) :
    read d.directive (' ' :: d.payload.toList) = .ok d := by
  cases d with
  | description text =>
      rw [directive, read, readDescription, trim_payload h rfl, quotedText?_quoteName h.1]
  | level value =>
      have htrim : Text.trim (' ' :: (level value).payload.toList) = (toString value).toList :=
        trim_payload h rfl
      rw [directive, read, readLevel, Text.unsigned?, htrim, Text.natural32?_toString]
  | element id typeName name cell =>
      rw [directive, read]
      exact readElement_payload h
  | note first =>
      rw [directive, read, trim_payload h rfl, String.ofList_toList]
  | slice kind name columns =>
      rw [directive, read]
      exact readSlice_payload h
  | flow direction source target =>
      have hread : readFlow direction (' ' :: (flow direction source target).payload.toList) =
          .ok (flow direction source target) := by
        have hpayload : (flow direction source target).payload = s!"{source} to {target}" :=
          String.intercalate_singleton
        rw [readFlow, hpayload, endpoints?_written]
      cases direction <;> exact hread

end Declaration

/-! ## Statements -/

namespace Statement

theorem ofLine_of_text {line : Line} {d : Declaration} (hline : line.text = toString d) :
    ofLine line = ⟨line, some d.directive, ' ' :: d.payload.toList⟩ := by
  rw [ofLine, hline, Declaration.toList_toString, Directive.split?_keyword]

/-- A line with a written declaration declares just that. -/
theorem declaration_ofLine {line : Line} {d : Declaration} (h : d.IsWritable)
    (hline : line.text = toString d) : (ofLine line).declaration = .ok d := by
  rw [ofLine_of_text hline, Statement.declaration]
  exact Declaration.read_payload h

end Statement

end EventModel
