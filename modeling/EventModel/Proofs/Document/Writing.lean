import EventModel.Rule.Violation
import EventModel.Proofs.Document.Account
import EventModel.Proofs.Document.FieldCutting
import EventModel.Proofs.Source.Keywords
import EventModel.Proofs.Text.Numerals

/-!
# Writing declarations

A declaration is written as the keyword of its directive, a colon and its fields.  Whatever can
be written (`Declaration.IsWritable`) is read back from its line as it was
(`declaration_ofLine`).
-/

namespace EventModel

namespace Declaration

/-- The fields of a declaration as they are written. -/
def written : Declaration → List String
  | description text => [quoteName text]
  | level value => [toString value]
  | element id typeName name cell => [toString id, typeName, quoteName name, toString cell]
  | note first => [first]
  | slice kind name columns =>
    kind.keyword :: quoteName name :: columns.toList.map toString
  | flow _ source target => [s!"{source} to {target}"]

/-- What follows the keyword and the colon. -/
def payload (d : Declaration) : String := ", ".intercalate d.written

/-- A declaration as a line of a document. -/
protected def toString (d : Declaration) : String := s!"{d.directive.keyword}: {d.payload}"

instance : ToString Declaration := ⟨Declaration.toString⟩

/-- What can be put between quotes and on one line. -/
def IsName (name : String) : Prop := '"' ∉ name.toList ∧ '\n' ∉ name.toList

/-- What can be a field as it is. -/
def IsPlain (text : String) : Prop :=
  Text.trim text.toList = text.toList ∧
    ',' ∉ text.toList ∧ '"' ∉ text.toList ∧ '\n' ∉ text.toList

/-- What can be the first line of a note or one that follows. -/
def IsNoteLine (line : String) : Prop :=
  line ≠ "" ∧ Text.trim line.toList = line.toList ∧ '\n' ∉ line.toList

/-- What can be written and read back. -/
def IsWritable : Declaration → Prop
  | description text => text ≠ "" ∧ '\n' ∉ text.toList
  | element _ typeName name _ => IsPlain typeName ∧ IsName name
  | note first => IsNoteLine first
  | slice _ name columns => IsName name ∧ columns.toList ≠ []
  | level _ | flow .. => True

instance (name : String) : Decidable (IsName name) := inferInstanceAs (Decidable (_ ∧ _))

instance (text : String) : Decidable (IsPlain text) := inferInstanceAs (Decidable (_ ∧ _))

instance (line : String) : Decidable (IsNoteLine line) := inferInstanceAs (Decidable (_ ∧ _))

instance : DecidablePred IsWritable
  | .description _ => inferInstanceAs (Decidable (_ ∧ _))
  | .element .. => inferInstanceAs (Decidable (_ ∧ _))
  | .note _ => inferInstanceAs (Decidable (IsNoteLine _))
  | .slice .. => inferInstanceAs (Decidable (_ ∧ _))
  | .level _ | .flow .. => .isTrue trivial

/-! ## Written fields -/

theorem toList_quoteName (name : String) :
    (quoteName name).toList = '"' :: (name.toList ++ ['"']) := by
  rw [quoteName, String.toList_append, String.toList_append]
  rfl

theorem toList_toString_cell (cell : Cell) :
    (toString cell).toList =
      (toString cell.column).toList ++ ';' :: (toString cell.row).toList := by
  change ((toString cell.column ++ ";") ++ toString cell.row).toList = _
  rw [String.toList_append, String.toList_append, List.append_assoc]
  rfl

theorem toList_written_flow (source target : ElementId) :
    (s!"{source} to {target}").toList =
      (toString source).toList ++ ' ' :: 't' :: 'o' :: ' ' :: (toString target).toList := by
  change ((toString source ++ " to ") ++ toString target).toList = _
  rw [String.toList_append, String.toList_append, List.append_assoc]
  rfl

theorem isNumeralChar_of_mem_id {id : ElementId} {c : Char} (h : c ∈ (toString id).toList) :
    Text.isNumeralChar c = true :=
  Text.isNumeralChar_of_mem_toString_uint32 h

theorem isNumeralChar_of_mem_column {column : Int32} {c : Char}
    (h : c ∈ (toString column).toList) : Text.isNumeralChar c = true :=
  Text.isNumeralChar_of_mem_toString (n := column.toInt) h

theorem isNumeralChar_of_mem_cell {cell : Cell} {c : Char} (h : c ∈ (toString cell).toList) :
    Text.isNumeralChar c = true ∨ c = ';' := by
  rw [toList_toString_cell, List.mem_append, List.mem_cons] at h
  rcases h with h | rfl | h
  · exact Or.inl (isNumeralChar_of_mem_column h)
  · exact Or.inr rfl
  · exact Or.inl (isNumeralChar_of_mem_column h)

/-- A text that can be a field: trimmed, and on one line. -/
def IsField (text : String) : Prop :=
  Text.trim text.toList = text.toList ∧ '\n' ∉ text.toList

theorem isField_of_forall {text : String}
    (h : ∀ c ∈ text.toList, Text.isNumeralChar c = true ∨ c = ';') : IsField text := by
  refine ⟨Text.trim_of_forall_not_isBlank ?_, ?_⟩
  · intro c hc
    rcases h c hc with hnumeral | rfl
    · exact Text.isBlank_of_isNumeralChar hnumeral
    · decide
  · intro hnewline
    exact absurd (h _ hnewline) (by decide)

theorem isField_id (id : ElementId) : IsField (toString id) :=
  isField_of_forall fun _ hc => Or.inl (isNumeralChar_of_mem_id hc)

theorem isField_column (column : Int32) : IsField (toString column) :=
  isField_of_forall fun _ hc => Or.inl (isNumeralChar_of_mem_column hc)

theorem isField_quoteName {name : String} (h : '\n' ∉ name.toList) :
    IsField (quoteName name) := by
  rw [IsField, toList_quoteName]
  exact ⟨Document.trim_quoted _, by simpa using h⟩

theorem isField_flow (source target : ElementId) : IsField s!"{source} to {target}" := by
  rw [IsField, toList_written_flow]
  constructor
  · rw [Text.trim_eq_self_iff]
    have hsource : (toString source).toList ≠ [] := Text.toList_toString_uint32_ne_nil source
    have htarget : (toString target).toList ≠ [] := Text.toList_toString_uint32_ne_nil target
    constructor
    · intro c hc
      rw [List.head?_append_of_ne_nil _ hsource] at hc
      exact Text.isBlank_of_isNumeralChar (isNumeralChar_of_mem_id (List.mem_of_head? hc))
    · intro c hc
      rw [List.getLast?_append_cons, List.getLast?_cons_cons, List.getLast?_cons_cons,
        List.getLast?_cons_cons, List.getLast?_cons_of_ne_nil htarget] at hc
      exact Text.isBlank_of_isNumeralChar (isNumeralChar_of_mem_id (List.mem_of_getLast? hc))
  · intro hnewline
    simp only [List.mem_append, List.mem_cons] at hnewline
    rcases hnewline with h | h | h | h | h | h
    · exact absurd (isNumeralChar_of_mem_id h) (by decide)
    · exact absurd h (by decide)
    · exact absurd h (by decide)
    · exact absurd h (by decide)
    · exact absurd h (by decide)
    · exact absurd (isNumeralChar_of_mem_id h) (by decide)

theorem isField_of_mem_written {d : Declaration} (h : d.IsWritable) {field : String}
    (hfield : field ∈ d.written) : IsField field := by
  cases d with
  | description text =>
      rw [List.mem_singleton.1 hfield]
      exact isField_quoteName h.2
  | level value =>
      rw [List.mem_singleton.1 hfield]
      exact isField_id value
  | element id typeName name cell =>
      obtain ⟨htype, hname⟩ := h
      simp only [written, List.mem_cons, List.not_mem_nil, or_false] at hfield
      rcases hfield with rfl | rfl | rfl | rfl
      · exact isField_id id
      · exact ⟨htype.1, htype.2.2.2⟩
      · exact isField_quoteName hname.2
      · exact isField_of_forall fun c hc => isNumeralChar_of_mem_cell hc
  | note first =>
      rw [List.mem_singleton.1 hfield]
      exact h.2
  | slice kind name columns =>
      simp only [written, List.mem_cons, List.mem_map] at hfield
      rcases hfield with rfl | rfl | ⟨column, -, rfl⟩
      · cases kind <;> exact ⟨by decide, by decide⟩
      · exact isField_quoteName h.1.2
      · exact isField_column column
  | flow direction source target =>
      rw [List.mem_singleton.1 hfield]
      exact isField_flow source target

/-- The last field is never empty. -/
theorem exists_last_written {d : Declaration} (h : d.IsWritable) :
    ∃ fields field, d.written = fields ++ [field] ∧ field.toList ≠ [] := by
  cases d with
  | description text => exact ⟨[], quoteName text, rfl, by simp [toList_quoteName]⟩
  | level value => exact ⟨[], toString value, rfl, Text.toList_toString_uint32_ne_nil value⟩
  | element id typeName name cell =>
      exact ⟨[toString id, typeName, quoteName name], toString cell, rfl,
        by simp [toList_toString_cell]⟩
  | note first =>
      refine ⟨[], first, rfl, ?_⟩
      intro hnil
      exact h.1 (String.toList_eq_nil_iff.1 hnil)
  | slice kind name columns =>
      rcases List.eq_nil_or_concat columns.toList with hnil | ⟨front, last, hconcat⟩
      · exact absurd hnil h.2
      · refine ⟨kind.keyword :: quoteName name :: front.map toString, toString last, ?_,
          Text.toList_toString_int_ne_nil last.toInt⟩
        rw [written, hconcat, List.concat_eq_append, List.map_append]
        rfl
  | flow direction source target =>
      refine ⟨[], s!"{source} to {target}", rfl, ?_⟩
      rw [toList_written_flow]
      exact List.append_ne_nil_of_right_ne_nil _ (List.cons_ne_nil _ _)

/-! ## Written lines -/

theorem toList_payload (d : Declaration) :
    d.payload.toList = [',', ' '].intercalate (d.written.map String.toList) :=
  String.toList_intercalate

theorem toList_toString (d : Declaration) :
    (toString d).toList = d.directive.keyword.toList ++ ':' :: ' ' :: d.payload.toList := by
  change ((d.directive.keyword ++ ": ") ++ d.payload).toList = _
  rw [String.toList_append, String.toList_append, List.append_assoc]
  rfl

theorem newline_notMem_toString {d : Declaration} (h : d.IsWritable) :
    '\n' ∉ (toString d).toList := by
  rw [toList_toString, toList_payload, List.mem_append, List.mem_cons, List.mem_cons]
  rintro (hkeyword | hcolon | hspace | hpayload)
  · have hnone : '\n' ∉ d.directive.keyword.toList := by
      cases d.directive <;> decide
    exact hnone hkeyword
  · exact absurd hcolon (by decide)
  · exact absurd hspace (by decide)
  · rcases Document.mem_intercalate hpayload with hsep | ⟨p, hp, hmem⟩
    · exact absurd hsep (by decide)
    · obtain ⟨field, hfield, rfl⟩ := List.mem_map.1 hp
      exact (isField_of_mem_written h hfield).2 hmem

/-- A written line has no white space at its ends, and it is no comment. -/
theorem trim_toString {d : Declaration} (h : d.IsWritable) :
    Text.trim (toString d).toList = (toString d).toList ∧
      Line.isMeaningful (toString d).toList = true := by
  obtain ⟨fields, field, hwritten, hne⟩ := exists_last_written h
  have hfield : IsField field := isField_of_mem_written h (by simp [hwritten])
  obtain ⟨c, cs, hcons, hblank, hcomment⟩ := d.directive.exists_keyword_eq
  rw [toList_toString, hcons, List.cons_append]
  refine ⟨Text.trim_eq_self_iff.2 ⟨?_, ?_⟩, bne_iff_ne.2 hcomment⟩
  · intro e he
    rw [← Option.some.inj he]
    exact hblank
  · intro e he
    have hlast : d.payload.toList.getLast? = field.toList.getLast? := by
      rw [toList_payload, hwritten, List.map_append, List.map_singleton,
        Document.getLast?_intercalate_concat _ hne]
    have hpayload : d.payload.toList ≠ [] := by
      intro hnil
      rw [hnil, List.getLast?_nil, eq_comm, List.getLast?_eq_none_iff] at hlast
      exact hne hlast
    rw [← List.cons_append, List.getLast?_append_cons, List.getLast?_cons_cons,
      List.getLast?_cons_of_ne_nil hpayload, hlast] at he
    exact (Text.trim_eq_self_iff.1 hfield.1).2 e he

end Declaration

end EventModel
