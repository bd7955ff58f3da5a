import EventModel.Proofs.Document.Origins
import EventModel.Proofs.Document.ReadingBack
import EventModel.Proofs.Source.Classification

/-!
# Elements in writing

The coordinates of an element can be written with a semicolon, a colon or a comma, and with white
space around each part; they are read as the same cell.  A semicolon or colon ends them, so whatever
follows a comma after that is passed over.  A comma does not: with a further one behind it there are
no coordinates, so nothing that follows can move the cell (`element_forms_agree`).
-/

namespace EventModel

open Text (Padded IsGap IsSpacing)

/-! ## Commas in coordinates -/

namespace Cell

/-- In a written cell there is one comma at most. -/
theorem IsWritten.count_comma_le {text x y : List Char} {cell : Cell} {sep : Char}
    (h : IsWritten text cell x sep y) : text.count ',' ≤ 1 := by
  have hnone : ∀ {cs : List Char} {n : Int}, Text.WritesInteger cs n → cs.count ',' = 0 := by
    intro cs n hcs
    rw [List.count_eq_zero]
    exact fun hmem => absurd (isAnySeparator_of_mem hcs _ hmem) (by decide)
  rw [h.split, List.count_append, List.count_cons, hnone h.column, hnone h.row]
  split <;> decide

theorem read_ne_ok_of_two_le_count {text : List Char} (h : 2 ≤ text.count ',') (cell : Cell) :
    read text ≠ .ok cell := by
  rw [ne_eq, read_eq_ok_iff]
  rintro ⟨x, sep, y, hwritten⟩
  have hle := hwritten.count_comma_le
  rw [count_compact (by decide)] at hle
  omega

end Cell

namespace Declaration

open Document

/-! ## Written elements -/

/-- The payload of an element in writing: its fields, and column and row with a separator between
them.  White space may stand around each of them. -/
def WritesElement (sep : Char) (id : ElementId) (typeName name : String) (cell : Cell)
    (payload : List Char) : Prop :=
  ∃ idField typeField nameField column row : List Char,
    Padded (toString id).toList idField ∧ Padded typeName.toList typeField ∧
      Padded (quoteName name).toList nameField ∧
      Padded (toString cell.column).toList column ∧ Padded (toString cell.row).toList row ∧
      payload =
        idField ++ ',' :: (typeField ++ ',' :: (nameField ++ ',' :: (column ++ sep :: row)))

variable {sep : Char} {id : ElementId} {typeName name : String} {cell : Cell}
  {payload : List Char}

theorem WritesElement.trimEnd (h : WritesElement sep id typeName name cell payload)
    (hsep : sep = ';' ∨ sep = ':' ∨ sep = ',') :
    WritesElement sep id typeName name cell (Text.trimEnd payload) := by
  obtain ⟨idField, typeField, nameField, column, row, hid, htype, hname, hcolumn, hrow, rfl⟩ := h
  have hrow' := hrow.trimEnd (Text.toList_toString_int_ne_nil cell.row.toInt)
    (isField_column cell.row).1
  refine ⟨idField, typeField, nameField, column, _, hid, htype, hname, hcolumn, hrow', ?_⟩
  simp only [Text.trimEnd_append_cons, Text.trimEnd_cons, Cell.isBlank_of_separator hsep,
    (by decide : Text.isBlank ',' = false)]

/-- The first three fields of a written element, whatever comes after them. -/
theorem map_text_fields_element (htype : IsPlain typeName) (hname : IsName name)
    {idField typeField nameField : List Char} (hidField : Padded (toString id).toList idField)
    (htypeField : Padded typeName.toList typeField)
    (hnameField : Padded (quoteName name).toList nameField) (rest : List Char) :
    (fields (idField ++ ',' :: (typeField ++ ',' :: (nameField ++ ',' :: rest)))).map (·.text) =
      (toString id).toList :: typeName.toList :: (quoteName name).toList ::
        (cutAtCommas false rest).map Text.trim := by
  have hidPiece : IsPiece idField := (isPiece_id id).of_padded hidField
  have htypePiece : IsPiece typeField :=
    (isPiece_of_plain htype.2.1 htype.2.2.1).of_padded htypeField
  have hnamePiece : IsPiece nameField := (isPiece_quoteName hname).of_padded hnameField
  rw [map_text_fields, cutAtCommas_piece_comma hidPiece, cutAtCommas_piece_comma htypePiece,
    cutAtCommas_piece_comma hnamePiece, List.map_cons, List.map_cons, List.map_cons,
    hidField.trim_eq (isField_id id).1, htypeField.trim_eq htype.1,
    hnameField.trim_eq (isField_quoteName hname.2).1]

/-- What comes after the first three fields is read as coordinates. -/
theorem readElement_of_rest (htype : IsPlain typeName) (hname : IsName name)
    {idField typeField nameField : List Char} (hidField : Padded (toString id).toList idField)
    (htypeField : Padded typeName.toList typeField)
    (hnameField : Padded (quoteName name).toList nameField) {rest first : List Char}
    {others : List (List Char)} (hrest : (cutAtCommas false rest).map Text.trim = first :: others) :
    ∃ firstField otherFields, firstField.text = first ∧ otherFields.map (·.text) = others ∧
      readElement (idField ++ ',' :: (typeField ++ ',' :: (nameField ++ ',' :: rest))) =
        (readCell firstField otherFields).map fun cell => .element id typeName name cell := by
  have htexts := map_text_fields_element htype hname hidField htypeField hnameField rest
  rw [hrest] at htexts
  obtain ⟨firstField, otherFields, hfirst, hothers, hread⟩ := readElement_of_fields htexts
  refine ⟨firstField, otherFields, hfirst, hothers, ?_⟩
  rw [hread, toList_quoteName, unquote_quoted, String.ofList_toList, String.ofList_toList]

/-! ## Coordinates in fields -/

section Coordinates

variable {column row : List Char} (hcolumn : Padded (toString cell.column).toList column)
  (hrow : Padded (toString cell.row).toList row)

include hcolumn hrow

/-- Coordinates with a semicolon or a colon are one field, whatever comes after it. -/
theorem isPiece_separated (hsep : sep = ';' ∨ sep = ':') : IsPiece (column ++ sep :: row) := by
  have hsepPiece : IsPiece [sep] := by
    rcases hsep with rfl | rfl <;> exact isPiece_of_plain (by decide) (by decide)
  exact ((isPiece_column _).of_padded hcolumn).append
    (hsepPiece.append ((isPiece_column _).of_padded hrow))

theorem read_coordinateText_separated (hsep : sep = ';' ∨ sep = ':') (others : List (List Char)) :
    Cell.read (coordinateText (Text.trim (column ++ sep :: row)) others) = .ok cell := by
  have hwritten : sep = ';' ∨ sep = ':' ∨ sep = ',' := by
    rcases hsep with rfl | rfl
    · exact Or.inl rfl
    · exact Or.inr (Or.inl rfl)
  have hmem : sep ∈ Text.trim (column ++ sep :: row) := by
    rw [← List.count_pos_iff, Text.count_trim (Cell.isBlank_of_separator hwritten)]
    exact List.count_pos_iff.2 (List.mem_append_right _ List.mem_cons_self)
  have hany : (Text.trim (column ++ sep :: row)).any Cell.isSeparator = true := by
    rw [List.any_eq_true]
    refine ⟨sep, hmem, ?_⟩
    rcases hsep with rfl | rfl <;> decide
  rw [coordinateText, if_pos hany, List.intercalate_singleton]
  apply Cell.read_of_compact_eq hwritten
  rw [Cell.compact_trim, Cell.compact_written hwritten hcolumn hrow]

/-- Coordinates with a comma are two fields, and both count with all that follow. -/
theorem map_trim_cutAtCommas_comma (others : List (List Char)) {rest : List Char}
    (hrest : cutAtCommas false (row ++ rest) = row :: others) :
    (cutAtCommas false (column ++ ',' :: (row ++ rest))).map Text.trim =
      (toString cell.column).toList :: (toString cell.row).toList :: others.map Text.trim := by
  rw [cutAtCommas_piece_comma ((isPiece_column _).of_padded hcolumn), hrest, List.map_cons,
    List.map_cons, hcolumn.trim_eq (isField_column _).1, hrow.trim_eq (isField_column _).1]

end Coordinates

theorem coordinateText_column (n : Int32) (others : List (List Char)) :
    coordinateText (toString n).toList others =
      [','].intercalate ((toString n).toList :: others) := by
  have hnone : (toString n).toList.any Cell.isSeparator = false := by
    rw [List.any_eq_false]
    intro c hc hsep
    have hnumeral := isNumeralChar_of_mem_column hc
    rw [Cell.isSeparator, Bool.or_eq_true, beq_iff_eq, beq_iff_eq] at hsep
    rcases hsep with rfl | rfl <;> exact absurd hnumeral (by decide)
  rw [coordinateText, hnone, if_neg (by decide)]

/-! ## Reading written elements -/

theorem readElement_separated (htype : IsPlain typeName) (hname : IsName name)
    (hsep : sep = ';' ∨ sep = ':') (h : WritesElement sep id typeName name cell payload) :
    readElement payload = .ok (.element id typeName name cell) ∧
      ∀ tail, readElement (payload ++ ',' :: tail) = .ok (.element id typeName name cell) := by
  obtain ⟨idField, typeField, nameField, column, row, hid, htypeField, hnameField, hcolumn, hrow,
    rfl⟩ := h
  have hpiece := isPiece_separated hcolumn hrow hsep
  -- the coordinates are the fourth field, and nothing behind them is looked at
  have hread : ∀ {rest : List Char} {others : List (List Char)},
      cutAtCommas false rest = (column ++ sep :: row) :: others →
        readElement (idField ++ ',' :: (typeField ++ ',' :: (nameField ++ ',' :: rest))) =
          .ok (.element id typeName name cell) := by
    intro rest others hrest
    obtain ⟨first, others', hfirst, -, hread⟩ := readElement_of_rest htype hname hid htypeField
      hnameField (by rw [hrest, List.map_cons])
    rw [hread, readCell_of_read]
    · rfl
    · rw [hfirst]
      exact read_coordinateText_separated hcolumn hrow hsep _
  refine ⟨hread (cutAtCommas_piece hpiece), fun tail => ?_⟩
  have htail := hread (cutAtCommas_piece_comma hpiece tail)
  simpa only [List.append_assoc, List.cons_append] using htail

theorem readElement_comma (htype : IsPlain typeName) (hname : IsName name)
    (h : WritesElement ',' id typeName name cell payload) :
    readElement payload = .ok (.element id typeName name cell) := by
  obtain ⟨idField, typeField, nameField, column, row, hid, htypeField, hnameField, hcolumn, hrow,
    rfl⟩ := h
  have hrow' : cutAtCommas false (row ++ []) = [row] := by
    rw [List.append_nil, cutAtCommas_piece ((isPiece_column _).of_padded hrow)]
  have hrest := map_trim_cutAtCommas_comma hcolumn hrow [] hrow'
  rw [List.append_nil] at hrest
  obtain ⟨first, others, hfirst, hothers, hread⟩ :=
    readElement_of_rest htype hname hid htypeField hnameField hrest
  rw [hread, readCell_of_read]
  · rfl
  · rw [hfirst, hothers, coordinateText_column, List.map_nil, List.intercalate_cons_cons,
      List.intercalate_singleton, List.append_assoc]
    apply Cell.read_of_compact_eq (Or.inr (Or.inr rfl))
    exact Cell.compact_written (Or.inr (Or.inr rfl)) (Padded.refl _) (Padded.refl _)

theorem readElement_of_writesElement (htype : IsPlain typeName) (hname : IsName name)
    (hsep : sep = ';' ∨ sep = ':' ∨ sep = ',')
    (h : WritesElement sep id typeName name cell payload) :
    readElement payload = .ok (.element id typeName name cell) := by
  rcases hsep with rfl | rfl | rfl
  · exact (readElement_separated htype hname (Or.inl rfl) h).1
  · exact (readElement_separated htype hname (Or.inr rfl) h).1
  · exact readElement_comma htype hname h

/-- Behind a cell that is written with a comma there may be no other comma. -/
theorem exists_fault_of_comma (htype : IsPlain typeName) (hname : IsName name)
    (h : WritesElement ',' id typeName name cell payload) (tail : List Char) :
    ∃ fault, readElement (payload ++ ',' :: tail) = .error fault ∧
      (fault.code = .coordinateFormat ∨ fault.code = .nonNumericCoordinates) := by
  obtain ⟨idField, typeField, nameField, column, row, hid, htypeField, hnameField, hcolumn, hrow,
    rfl⟩ := h
  have hrest := map_trim_cutAtCommas_comma hcolumn hrow (cutAtCommas false tail)
    (cutAtCommas_piece_comma ((isPiece_column _).of_padded hrow) tail)
  obtain ⟨first, others, hfirst, hothers, hread⟩ :=
    readElement_of_rest htype hname hid htypeField hnameField hrest
  have hcommas : 2 ≤ (coordinateText first.text (others.map (·.text))).count ',' := by
    obtain ⟨piece, pieces, hpieces⟩ :=
      List.exists_cons_of_ne_nil (cutAtCommas_ne_nil false tail)
    rw [hfirst, hothers, coordinateText_column, hpieces, List.map_cons,
      List.intercalate_cons_cons, List.intercalate_cons_cons]
    simp only [List.count_append, List.count_singleton_self]
    omega
  obtain ⟨fault, hfault, hcode⟩ := exists_fault_of_readCell
    (Cell.read_ne_ok_of_two_le_count hcommas)
  refine ⟨fault, ?_, hcode⟩
  rw [hfault, Except.map] at hread
  simpa only [List.append_assoc, List.cons_append] using hread

end Declaration

/-! ## Lines with an element -/

theorem Statement.declaration_of_element {s : Statement} (h : s.directive = some .element) :
    s.declaration = Declaration.readElement s.payload := by
  rw [declaration, h]
  rfl

namespace Document

open Declaration (IsPlain IsName WritesElement)

/-- The statement is refused for its coordinates.  This is reported on its line, and no element of
the document comes from there. -/
structure RefusesCoordinates (source : String) (s : Statement) : Prop where
  declaration : ∃ fault, s.declaration = .error fault
  reports : ∃ d, (build source).diagnostics.filter (·.line = s.line) = [d] ∧
    (d.code.text = "E006" ∨ d.code.text = "E007")
  elements : ∀ e ∈ (build source).diagram.elements, e.origin ≠ s.line

theorem refusesCoordinates {source : String} {s : Statement} (hs : s ∈ Statement.scan source)
    {d : Directive} (hd : s.directive = some d) {fault : Fault} (h : s.declaration = .error fault)
    (hcode : fault.code = .coordinateFormat ∨ fault.code = .nonNumericCoordinates) :
    RefusesCoordinates source s where
  declaration := ⟨fault, h⟩
  reports := by
    refine ⟨_, (refused_on_line hs hd h).1, ?_⟩
    rcases hcode with hcode | hcode
    · exact Or.inl (congrArg Code.text hcode)
    · exact Or.inr (congrArg Code.text hcode)
  elements := (refused_on_line hs hd h).2

/-- **The three ways to write coordinates agree.**  A line with the fields of an element declares
it, whichever separator stands between column and row and whatever white space stands around them
and around the fields.  When a comma and any text are appended, the element is the same after a
semicolon or a colon, and after a comma the line is refused for its coordinates. -/
theorem element_forms_agree (id : ElementId) (typeName name : String) (cell : Cell)
    (htype : IsPlain typeName) (hname : IsName name) (sep : Char)
    (hsep : sep = ';' ∨ sep = ':' ∨ sep = ',') (payload : List Char)
    (hpayload : WritesElement sep id typeName name cell payload) (lead blanks : List Char)
    (hlead : IsGap lead) (hblanks : IsSpacing blanks) (source : String) (number : Nat) :
    ((Directive.element.lineWith lead blanks payload, number) ∈
        (source.toList.splitOn '\n').zipIdx 1 →
      ∃ s ∈ Statement.scan source, s.line.number = number ∧
        s.declaration = .ok (.element id typeName name cell)) ∧
      ∀ tail, (Directive.element.lineWith lead blanks (payload ++ ',' :: tail), number) ∈
          (source.toList.splitOn '\n').zipIdx 1 →
        ∃ s ∈ Statement.scan source, s.line.number = number ∧
          (sep = ';' ∨ sep = ':' → s.declaration = .ok (.element id typeName name cell)) ∧
          (sep = ',' → RefusesCoordinates source s) := by
  constructor
  · intro hpiece
    obtain ⟨s, hs, hnumber, hdirective, hrest⟩ :=
      Statement.exists_of_lineWith hlead hblanks hpiece
    refine ⟨s, hs, hnumber, ?_⟩
    rw [Statement.declaration_of_element hdirective, hrest]
    exact Declaration.readElement_of_writesElement htype hname hsep (hpayload.trimEnd hsep)
  · intro tail hpiece
    obtain ⟨s, hs, hnumber, hdirective, hrest⟩ :=
      Statement.exists_of_lineWith hlead hblanks hpiece
    rw [Text.trimEnd_append_cons (by decide), Text.trimEnd_cons (by decide)] at hrest
    refine ⟨s, hs, hnumber, fun hseparated => ?_, fun hcomma => ?_⟩
    · rw [Statement.declaration_of_element hdirective, hrest]
      exact (Declaration.readElement_separated htype hname hseparated hpayload).2 _
    · rw [hcomma] at hpayload
      obtain ⟨fault, hfault, hcode⟩ :=
        Declaration.exists_fault_of_comma htype hname hpayload (Text.trimEnd tail)
      rw [← hrest, ← Statement.declaration_of_element hdirective] at hfault
      exact refusesCoordinates hs hdirective hfault hcode

/-- The same element twice, with white space of several widths; the second time a comma and an open
quote follow. -/
def commaForms : String :=
  "\u00a0ELEMENT\t: 7,\u3000event , \"a, b\" ,\t-2147483648 , 9\n" ++
    "\u00a0ELEMENT\t: 7,\u3000event , \"a, b\" ,\t-2147483648 , 9,0;\"1\n"

theorem element_forms_agree_comma :
    (∃ s ∈ Statement.scan commaForms, s.line.number = 1 ∧
        s.declaration = .ok (.element 7 "event" "a, b" ⟨9, -2147483648⟩)) ∧
      ∃ s ∈ Statement.scan commaForms, s.line.number = 2 ∧ RefusesCoordinates commaForms s := by
  have hpayload : WritesElement ',' 7 "event" "a, b" ⟨9, -2147483648⟩
      " 7,\u3000event , \"a, b\" ,\t-2147483648 , 9".toList :=
    ⟨" 7".toList, "\u3000event ".toList, " \"a, b\" ".toList, "\t-2147483648 ".toList, " 9".toList,
      ⟨[' '], [], by decide, by decide, by decide⟩,
      ⟨['\u3000'], [' '], by decide, by decide, by decide⟩,
      ⟨[' '], [' '], by decide, by decide, by decide⟩,
      ⟨['\t'], [' '], by decide, by decide, by decide +kernel⟩,
      ⟨[' '], [], by decide, by decide, by decide +kernel⟩, by decide +kernel⟩
  have hread := element_forms_agree 7 "event" "a, b" ⟨9, -2147483648⟩ (by decide) (by decide) ','
    (by decide) _ hpayload ['\u00a0'] ['\t'] (by decide) (by decide) commaForms
  obtain ⟨s, hs, hnumber, -, hrefused⟩ := (hread 2).2 "0;\"1".toList (by decide +kernel)
  exact ⟨(hread 1).1 (by decide +kernel), s, hs, hnumber, hrefused rfl⟩

end Document

end EventModel
