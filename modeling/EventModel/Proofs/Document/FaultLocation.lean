import EventModel.Proofs.Document.FieldCutting
import EventModel.Proofs.Document.Origins
import EventModel.Proofs.Source.Location

/-!
# Where faults lie

A fault that is found in reading a payload knows the place in the payload where it lies
(`Declaration.fits_of_read`), so its labels point into the line of its statement, between
characters.  The only other place that a fault points at is the line of an element that was
accepted before (`Occurrence.fits_of_fault?`).
-/

namespace EventModel

/-! ## Fields -/

namespace Document

/-- Cutting a payload at its commas loses nothing but the commas. -/
theorem intercalate_cutAtCommas (quoted : Bool) (cs : List Char) :
    [','].intercalate (cutAtCommas quoted cs) = cs := by
  induction cs generalizing quoted with
  | nil => rfl
  | cons c cs ih =>
      rw [cutAtCommas]
      split
      · rename_i hcomma
        rw [Bool.and_eq_true, beq_iff_eq] at hcomma
        rw [List.intercalate_cons_of_ne_nil (cutAtCommas_ne_nil _ _), ih, hcomma.1]
        rfl
      · have hrest := ih (quoted != (c == '"'))
        cases hcut : cutAtCommas (quoted != (c == '"')) cs with
        | nil => exact absurd hcut (cutAtCommas_ne_nil _ _)
        | cons p ps =>
            rw [hcut] at hrest
            rw [List.modifyHead_cons]
            cases ps with
            | nil =>
                rw [List.intercalate_singleton] at hrest ⊢
                rw [hrest]
            | cons q qs =>
                rw [List.intercalate_cons_cons] at hrest ⊢
                rw [← hrest]
                rfl

theorem isPart_of_mem_fields {payload : List Char} {f : Text.Fragment}
    (h : f ∈ fields payload) : f.IsPart payload := by
  rw [fields_eq] at h
  obtain ⟨piece, hpiece, rfl⟩ := List.mem_map.1 h
  have hpart := Text.Fragment.isPart_of_mem_locate (by decide : ','.utf8Size = 1) hpiece
  rw [intercalate_cutAtCommas] at hpart
  exact hpart.trim

theorem trim_of_mem_fields {payload : List Char} {f : Text.Fragment}
    (h : f ∈ fields payload) : Text.trim f.text = f.text := by
  obtain ⟨piece, -, rfl⟩ := List.mem_map.1 h
  exact Text.trim_trim piece.text

end Document

/-! ## Faults of a payload -/

/-- A fault lies in the payload of a statement, and where it says: ranges cut no character, and
what is quoted is the first field of the directive that has such a field. -/
def Fault.Fits (s : Statement) : Fault → Prop
  | nonNumericLevel range | malformedCoordinates _ range | nonNumericCoordinates _ range =>
    Text.IsBoundary s.payload range.start ∧ Text.IsBoundary s.payload range.stop
  | nonNumericId written =>
    s.directive = some .element ∧ (Document.fields s.payload).head? = some written
  | unknownSliceKind written =>
    s.directive = some .slice ∧ (Document.fields s.payload).head? = some written
  | duplicateId .. => False
  | _ => True

namespace Declaration

open Document

variable {s : Statement} {fault : Fault}

theorem fits_of_readCell {first : Text.Fragment} {others : List Text.Fragment}
    (hfields : ∀ f ∈ first :: others, f.IsPart s.payload)
    (h : readCell first others = .error fault) : fault.Fits s := by
  have hused : ∀ f ∈ coordinateFields first others, f ∈ first :: others := by
    intro f hf
    rw [coordinateFields] at hf
    split at hf
    · rw [List.mem_singleton] at hf
      rw [hf]
      exact List.mem_cons_self
    · exact hf
  have hlast : (((coordinateFields first others).getLast?).getD first).IsPart s.payload := by
    cases hgetLast : (coordinateFields first others).getLast? with
    | none => exact hfields first List.mem_cons_self
    | some last => exact hfields last (hused last (List.mem_of_getLast? hgetLast))
  -- both faults have the same range
  have hrange := (hfields first List.mem_cons_self).isBoundary_offset.min hlast.isBoundary_stop
  unfold readCell at h
  simp only at h
  split at h
  · exact absurd h (by simp)
  · rw [← Except.error.inj h]
    exact ⟨hrange, hlast.isBoundary_stop⟩
  · rw [← Except.error.inj h]
    exact ⟨hrange, hlast.isBoundary_stop⟩

theorem fits_of_readElement (hs : s.directive = some .element)
    (h : readElement s.payload = .error fault) : fault.Fits s := by
  unfold readElement at h
  split at h
  · rename_i id typeName name first others hfields
    split at h
    · rw [← Except.error.inj h, Fault.Fits, hfields]
      exact ⟨hs, rfl⟩
    · cases hcell : readCell first others with
      | ok cell =>
          rw [hcell] at h
          exact absurd h (by simp [Except.map])
      | error cause =>
          rw [hcell] at h
          rw [← Except.error.inj h]
          refine fits_of_readCell (fun f hf => isPart_of_mem_fields ?_) hcell
          rw [hfields]
          exact List.mem_cons_of_mem _ (List.mem_cons_of_mem _ (List.mem_cons_of_mem _ hf))
  · rw [← Except.error.inj h]
    trivial

theorem fits_of_readSlice (hs : s.directive = some .slice)
    (h : readSlice s.payload = .error fault) : fault.Fits s := by
  unfold readSlice at h
  split at h
  · rename_i hfields
    split at h
    · rw [← Except.error.inj h, Fault.Fits, hfields]
      exact ⟨hs, rfl⟩
    · simp only at h
      split at h
      · rw [← Except.error.inj h]
        trivial
      · exact absurd h (by simp)
  · rw [← Except.error.inj h]
    trivial

theorem fits_of_readLevel (h : readLevel s.payload = .error fault) : fault.Fits s := by
  unfold readLevel at h
  split at h
  · exact absurd h (by simp)
  · rw [← Except.error.inj h]
    have hpart := Text.Fragment.isPart_trim s.payload
    exact ⟨hpart.isBoundary_offset, hpart.isBoundary_stop⟩

theorem fits_of_readDescription (h : readDescription s.payload = .error fault) :
    fault.Fits s := by
  unfold readDescription at h
  split at h
  · exact absurd h (by simp)
  · rw [← Except.error.inj h]
    trivial

theorem fits_of_readFlow {direction : FlowDirection}
    (h : readFlow direction s.payload = .error fault) : fault.Fits s := by
  unfold readFlow at h
  split at h
  · exact absurd h (by simp)
  · rw [← Except.error.inj h]
    trivial

theorem fits_of_read {d : Directive} (hs : s.directive = some d)
    (h : read d s.payload = .error fault) : fault.Fits s := by
  cases d with
  | description => exact fits_of_readDescription h
  | level => exact fits_of_readLevel h
  | element => exact fits_of_readElement hs h
  | text => exact absurd h (by simp [read])
  | slice => exact fits_of_readSlice hs h
  | flow => exact fits_of_readFlow h
  | backFlow => exact fits_of_readFlow h

end Declaration

/-! ## Faults of a statement in its place -/

theorem Occurrence.fits_of_fault? {o : Occurrence} {fault : Fault} (h : o.fault? = some fault) :
    fault.Fits o.statement ∨
      ∃ first ∈ acceptedElements o.before, fault = .duplicateId first.id first.origin := by
  unfold fault? at h
  split at h
  · split at h
    · exact absurd h (by simp)
    · rw [← Option.some.inj h]
      exact Or.inl trivial
  · rename_i directive cause hdirective hdeclaration
    rw [← Option.some.inj h]
    rw [Statement.declaration, hdirective] at hdeclaration
    exact Or.inl (Declaration.fits_of_read hdirective hdeclaration)
  · rename_i declaration _ _
    cases declaration with
    | element id =>
        obtain ⟨first, hfirst, rfl⟩ := Option.map_eq_some_iff.1 h
        have hid : first.id = id := by simpa using List.find?_some hfirst
        exact Or.inr ⟨first, List.mem_of_find?_eq_some hfirst, by rw [hid]⟩
    | note first =>
        rw [clash?] at h
        split at h
        · rw [← Option.some.inj h]
          exact Or.inl trivial
        · exact absurd h (by simp)
    | description | level | slice | flow => exact absurd h (by simp [clash?])

/-- The labels of a fault in a payload point at places in its line, between characters. -/
theorem Fault.label_of_fits {source : String} {s : Statement} (hs : s ∈ Statement.scan source)
    {fault : Fault} (hfits : fault.Fits s) {label : Label} (h : label ∈ fault.labels s) :
    label.isPrimary = true ∧ Text.IsBoundary source.toList label.span.start ∧
      Text.IsBoundary source.toList label.span.stop ∧
      s.line.span.start ≤ label.span.start ∧ label.span.stop ≤ s.line.span.stop := by
  have hhere {range : Span} {message : String} (hstart : Text.IsBoundary s.payload range.start)
      (hstop : Text.IsBoundary s.payload range.stop) (hl : label ∈ [labels.here s range message]) :
      label.isPrimary = true ∧ Text.IsBoundary source.toList label.span.start ∧
        Text.IsBoundary source.toList label.span.stop ∧
        s.line.span.start ≤ label.span.start ∧ label.span.stop ≤ s.line.span.stop := by
    rw [List.mem_singleton.1 hl]
    have hbounds := Statement.isBoundary_locate hs range.start_le_stop hstart hstop
    exact ⟨rfl, hbounds.1, hbounds.2, Span.start_le_sub_start _ _ _, Span.sub_stop_le_stop _ _ _⟩
  have hwritten {written : Text.Fragment}
      (hhead : (Document.fields s.payload).head? = some written) : written.IsPart s.payload :=
    Document.isPart_of_mem_fields (List.mem_of_head? hhead)
  cases fault with
  | nonNumericLevel | malformedCoordinates | nonNumericCoordinates =>
      exact hhere hfits.1 hfits.2 h
  | nonNumericId | unknownSliceKind =>
      exact hhere (hwritten hfits.2).isBoundary_offset (hwritten hfits.2).isBoundary_stop h
  | duplicateId => exact absurd hfits id
  | _ => exact absurd h List.not_mem_nil

end EventModel
