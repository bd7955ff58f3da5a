import EventModel.Proofs.Document.Account
import EventModel.Proofs.Document.FieldBounds

/-!
# Names without quotes

Elements and slices are named by a field of their payload, which loses a double quote at each end
where there is one.  The two ends do not ask for each other (`IsUnquoted`): in a field that quotes
the whole name a pair of quotes goes, but a quoted word at one end of a longer name loses one of its
quotes and keeps the other (`name_keeps_half_a_pair`).  So the name is what a pair of quotes holds,
or else the field as it stands, just when there is a quote at both ends or at neither
(`Statement.name_unquoted`).
-/

namespace EventModel

namespace Document

/-- The text without its first and last character if both are double quotes, and as it stands
otherwise. -/
def withoutPair (text : List Char) : List Char :=
  if 2 ≤ text.length ∧ text.head? = some '"' ∧ text.getLast? = some '"' then text.tail.dropLast
  else text

/-- The name is the text without a double quote at its start and without one at its end, each by
itself. -/
def IsUnquoted (text name : List Char) : Prop :=
  text = (if text.head? = some '"' then ['"'] else []) ++ name ++
    (if text.getLast? = some '"' then ['"'] else [])

/-! ## Quotes at the ends -/

theorem eq_append_dropQuote (text : List Char) :
    text = (if text.head? = some '"' then ['"'] else []) ++ dropQuote text := by
  by_cases hquote : text.head? = some '"'
  · obtain ⟨rest, rfl⟩ := List.head?_eq_some_iff.1 hquote
    rfl
  · rw [if_neg hquote, List.nil_append]
    unfold dropQuote
    split
    · exact absurd rfl hquote
    · rfl

theorem eq_append_dropQuote_reverse (text : List Char) :
    text =
      (dropQuote text.reverse).reverse ++ (if text.getLast? = some '"' then ['"'] else []) := by
  have hfront := congrArg List.reverse (eq_append_dropQuote text.reverse)
  rw [List.reverse_reverse, List.reverse_append, List.head?_reverse] at hfront
  rw [apply_ite List.reverse] at hfront
  exact hfront

/-- With a single quote for the whole text, both ends would lose the same one. -/
theorem getLast?_dropQuote {text : List Char} (h : text ≠ ['"']) :
    (dropQuote text).getLast? = text.getLast? := by
  unfold dropQuote
  split
  · rename_i rest
    cases rest with
    | nil => exact absurd rfl h
    | cons c rest => rw [List.getLast?_cons_cons]
  · rfl

theorem isUnquoted_unquote {text : List Char} (h : Even (text.count '"')) :
    IsUnquoted text (unquote text) := by
  have hne : text ≠ ['"'] := by
    rintro rfl
    exact absurd h (by decide)
  have hback := eq_append_dropQuote_reverse (dropQuote text)
  rw [getLast?_dropQuote hne] at hback
  rw [IsUnquoted, unquote, List.append_assoc, ← hback]
  exact eq_append_dropQuote text

theorem eq_withoutPair_iff {text name : List Char} (h : IsUnquoted text name) :
    name = withoutPair text ↔ (text.head? = some '"' ↔ text.getLast? = some '"') := by
  rw [IsUnquoted] at h
  by_cases hboth : text.head? = some '"' ↔ text.getLast? = some '"'
  · refine iff_of_true ?_ hboth
    by_cases hfirst : text.head? = some '"'
    · -- the pair goes
      have hlast := hboth.1 hfirst
      rw [if_pos hfirst, if_pos hlast] at h
      have hlength : 2 ≤ text.length := by
        rw [h]
        simp
      rw [withoutPair, if_pos ⟨hlength, hfirst, hlast⟩, h]
      simp
    · rw [if_neg hfirst, if_neg (mt hboth.2 hfirst), List.nil_append, List.append_nil] at h
      rw [withoutPair, if_neg fun hpair => hfirst hpair.2.1, h]
  · -- one quote goes alone, and the name is shorter than the field as it stands
    refine iff_of_false (fun heq => ?_) hboth
    rw [withoutPair, if_neg fun hpair => hboth (iff_of_true hpair.2.1 hpair.2.2)] at heq
    have hlength := congrArg List.length h
    rw [heq] at hlength
    by_cases hfirst : text.head? = some '"'
    · have hlast : text.getLast? ≠ some '"' := fun hlast => hboth (iff_of_true hfirst hlast)
      simp [hfirst, hlast] at hlength
    · have hlast : text.getLast? = some '"' := by
        by_contra hlast
        exact hboth (iff_of_false hfirst hlast)
      simp [hfirst, hlast] at hlength

/-! ## Fields that name -/

/-- A field of the payload gives the name.  Quotes go from its ends, each by itself, and this comes
to taking a whole pair away just when there is a quote at both ends or at neither. -/
def IsNamedByField (payload : List Char) (i : Nat) (name : String) : Prop :=
  ∃ field, (fields payload)[i]? = some field ∧ IsUnquoted field.text name.toList ∧
    (name.toList = withoutPair field.text ↔
      (field.text.head? = some '"' ↔ field.text.getLast? = some '"'))

/-- A field with another behind it closes all its quotes, so a quote cannot be the whole of it. -/
theorem isNamedByField_of_lt {payload : List Char} {i : Nat} {field : Text.Fragment}
    (hfield : (fields payload)[i]? = some field) (hlt : i + 1 < (fields payload).length) :
    IsNamedByField payload i (String.ofList (unquote field.text)) := by
  have hmem : field ∈ (fields payload).dropLast := by
    refine List.mem_of_getElem? (i := i) ?_
    rw [List.getElem?_dropLast, if_pos (by omega), hfield]
  have hunquoted := isUnquoted_unquote (even_count_of_mem_dropLast_fields hmem)
  refine ⟨field, hfield, ?_, ?_⟩
  · rw [String.toList_ofList]
    exact hunquoted
  · rw [String.toList_ofList]
    exact eq_withoutPair_iff hunquoted

end Document

namespace Declaration

open Document

theorem isNamedByField_of_readElement {payload : List Char} {id : ElementId}
    {typeName name : String} {cell : Cell}
    (h : readElement payload = .ok (.element id typeName name cell)) :
    IsNamedByField payload 2 name := by
  unfold readElement at h
  split at h
  · rename_i idField typeField nameField first others hfields
    split at h
    · exact absurd h (by simp)
    · cases hcell : readCell first others with
      | error fault =>
          rw [hcell] at h
          exact absurd h (by simp [Except.map])
      | ok found =>
          rw [hcell, Except.map, Except.ok.injEq, Declaration.element.injEq] at h
          rw [← h.2.2.1]
          exact isNamedByField_of_lt (by rw [hfields]; rfl) (by rw [hfields]; simp)
  · exact absurd h (by simp)

theorem isNamedByField_of_readSlice {payload : List Char} {kind : SliceKind} {name : String}
    {columns : ColumnSet} (h : readSlice payload = .ok (.slice kind name columns)) :
    IsNamedByField payload 1 name := by
  unfold readSlice at h
  split at h
  · rename_i kindField nameField first others hfields
    split at h
    · exact absurd h (by simp)
    · simp only at h
      split at h
      · exact absurd h (by simp)
      · rw [Except.ok.injEq, Declaration.slice.injEq] at h
        rw [← h.2.1]
        exact isNamedByField_of_lt (by rw [hfields]; rfl) (by rw [hfields]; simp)
  · exact absurd h (by simp)

end Declaration

namespace Statement

open Document

theorem read_of_declaration {s : Statement} {declaration : Declaration}
    (h : s.declaration = .ok declaration) :
    Declaration.read declaration.directive s.payload = .ok declaration := by
  rw [Statement.declaration, directive_of_declaration h] at h
  exact h

/-- **Names lose a quote at each end by itself.**  An element that is declared is named by the third
field of its payload and a slice by the second, less a double quote at the start and one at the end.
That is the field without a pair of quotes around it, or else as it stands, just when there is a
quote at both ends or at neither. -/
theorem name_unquoted (s : Statement) :
    (∀ e, s.element? = some e → IsNamedByField s.payload 2 e.name) ∧
      ∀ slice, s.slice? = some slice → IsNamedByField s.payload 1 slice.name := by
  constructor
  · intro e he
    unfold element? at he
    split at he
    · rename_i hdeclaration
      rw [← Option.some.inj he]
      exact Declaration.isNamedByField_of_readElement (read_of_declaration hdeclaration)
    · exact absurd he (by simp)
  · intro slice hslice
    unfold slice? at hslice
    split at hslice
    · rename_i hdeclaration
      rw [← Option.some.inj hslice]
      exact Declaration.isNamedByField_of_readSlice (read_of_declaration hdeclaration)
    · exact absurd hslice (by simp)

/-- An element whose name field starts with a quoted word. -/
def halfQuoted : Statement := .ofLine ⟨1, "ELEMENT: 1, Screen, \"Menu\" x, 1;1", ⟨0, 33, by decide⟩⟩

/-- The quoted word loses one of its quotes, so names are not as the removal of whole pairs would
have them. -/
theorem name_keeps_half_a_pair :
    ((fields halfQuoted.payload)[2]?.map fun field => field.text) = some "\"Menu\" x".toList ∧
      (halfQuoted.element?.map fun e => e.name) = some "Menu\" x" ∧
      ¬∀ (s : Statement) (e : Element), s.element? = some e →
        ∃ field, (fields s.payload)[2]? = some field ∧
          e.name.toList = withoutPair field.text := by
  have hfield : ((fields halfQuoted.payload)[2]?.map fun field => field.text) =
      some "\"Menu\" x".toList := by decide +kernel
  have hname : (halfQuoted.element?.map fun e => e.name) = some "Menu\" x" := by decide +kernel
  refine ⟨hfield, hname, fun hall => ?_⟩
  obtain ⟨e, he, hename⟩ := Option.map_eq_some_iff.1 hname
  obtain ⟨field, hsome, heq⟩ := hall halfQuoted e he
  rw [hsome, Option.map_some, Option.some.injEq] at hfield
  rw [hename, hfield] at heq
  exact absurd heq (by decide)

end Statement

end EventModel
