import Mathlib.Algebra.Group.Nat.Even
import EventModel.Proofs.Document.FaultLocation

/-!
# Where fields begin and end

A payload is cut at the commas that an even number of double quotes precedes, and nowhere else.
Its fields are what is left between these commas, trimmed (`fields_eq_map_between`), so each lies
between two commas or an end of the payload, and cuts no character (`fields_separated`).

Places count characters of the payload here, and offsets count bytes.
-/

namespace EventModel.Document

open Text (byteLength)

/-! ## Places of a payload -/

/-- A comma that an even number of double quotes precedes. -/
def IsSeparator (payload : List Char) (i : Nat) : Prop :=
  payload[i]? = some ',' ∧ Even ((payload.take i).count '"')

instance (payload : List Char) (i : Nat) : Decidable (IsSeparator payload i) :=
  inferInstanceAs (Decidable (_ ∧ _))

/-- The places of a payload where it is cut. -/
def separators (payload : List Char) : List Nat :=
  (List.range payload.length).filter (IsSeparator payload ·)

/-- What separators leave between two places, each stretch by its first place and the place after
its last. -/
def between (first last : Nat) : List Nat → List (Nat × Nat)
  | [] => [(first, last)]
  | sep :: seps => (first, sep) :: between (sep + 1) last seps

theorem length_between (first last : Nat) (seps : List Nat) :
    (between first last seps).length = 1 + seps.length := by
  induction seps generalizing first with
  | nil => rfl
  | cons sep seps ih =>
      rw [between, List.length_cons, ih, List.length_cons]
      omega

/-- Separators that come in order leave stretches that are the right way round. -/
theorem le_of_mem_between {first last : Nat} {seps : List Nat} (hle : first ≤ last)
    (hseps : ∀ sep ∈ seps, first ≤ sep ∧ sep < last) (hsorted : seps.Pairwise (· < ·))
    {b : Nat × Nat} (h : b ∈ between first last seps) : b.1 ≤ b.2 := by
  induction seps generalizing first with
  | nil =>
      rw [between, List.mem_singleton] at h
      rw [h]
      exact hle
  | cons sep seps ih =>
      obtain ⟨hfirst, hlast⟩ := hseps sep List.mem_cons_self
      obtain ⟨hnext, hsorted⟩ := List.pairwise_cons.1 hsorted
      rcases List.mem_cons.1 h with rfl | h
      · exact hfirst
      · exact ih hlast (fun s hs => ⟨hnext s hs, (hseps s (List.mem_cons_of_mem sep hs)).2⟩)
          hsorted h

/-- What holds at the start and on both sides of each separator holds at both ends of each stretch
but the last. -/
theorem forall_mem_dropLast_between {P : Nat → Prop} {first last : Nat} {seps : List Nat}
    (hfirst : P first) (hseps : ∀ sep ∈ seps, P sep ∧ P (sep + 1)) {b : Nat × Nat}
    (h : b ∈ (between first last seps).dropLast) : P b.1 ∧ P b.2 := by
  induction seps generalizing first with
  | nil => exact absurd h List.not_mem_nil
  | cons sep seps ih =>
      obtain ⟨hsep, hnext⟩ := hseps sep List.mem_cons_self
      have hne : between (sep + 1) last seps ≠ [] := by
        rw [← List.length_pos_iff, length_between]
        omega
      rw [between, List.dropLast_cons_of_ne_nil hne] at h
      rcases List.mem_cons.1 h with rfl | h
      · exact ⟨hfirst, hsep⟩
      · exact ih hnext (fun s hs => hseps s (List.mem_cons_of_mem sep hs)) h

theorem getLast?_between (first last : Nat) (seps : List Nat) :
    (between first last seps).getLast? =
      some (((seps.map (· + 1)).getLast?).getD first, last) := by
  induction seps generalizing first with
  | nil => rfl
  | cons sep seps ih =>
      rw [between, List.getLast?_cons, ih, Option.getD_some, List.map_cons, List.getLast?_cons,
        Option.getD_some]

theorem isSeparator_append_cons {front back : List Char} {c : Char} :
    IsSeparator (front ++ c :: back) front.length ↔ c = ',' ∧ Even (front.count '"') := by
  rw [IsSeparator, List.getElem?_append_right (Nat.le_refl _), Nat.sub_self, List.take_left,
    List.getElem?_cons_zero, Option.some.injEq]

theorem mem_separators {payload : List Char} {i : Nat} :
    i ∈ separators payload ↔ i < payload.length ∧ IsSeparator payload i := by
  rw [separators, List.mem_filter, List.mem_range, decide_eq_true_iff]

theorem pairwise_separators (payload : List Char) : (separators payload).Pairwise (· < ·) :=
  List.pairwise_lt_range.filter _

theorem le_of_mem_between_separators {payload : List Char} {b : Nat × Nat}
    (h : b ∈ between 0 payload.length (separators payload)) : b.1 ≤ b.2 :=
  le_of_mem_between (Nat.zero_le _) (fun _ hi => ⟨Nat.zero_le _, (mem_separators.1 hi).1⟩)
    (pairwise_separators payload) h

/-! ## Stretches of a payload -/

/-- What stands in a payload between two places. -/
def stretch (payload : List Char) (b : Nat × Nat) : Text.Fragment where
  offset := byteLength (payload.take b.1)
  text := (payload.take b.2).drop b.1

theorem take_append_text_stretch {payload : List Char} {b : Nat × Nat} (h : b.1 ≤ b.2) :
    payload.take b.1 ++ (stretch payload b).text = payload.take b.2 := by
  have htake : (payload.take b.2).take b.1 = payload.take b.1 := by
    rw [List.take_take, Nat.min_eq_left h]
  rw [stretch, ← htake, List.take_append_drop]

theorem stop_stretch {payload : List Char} {b : Nat × Nat} (h : b.1 ≤ b.2) :
    (stretch payload b).stop = byteLength (payload.take b.2) := by
  rw [← take_append_text_stretch h, Text.byteLength_append]
  rfl

/-- Whether the double quotes of a text are odd in number, so that the last of them opens. -/
def leavesOpen (text : List Char) : Bool := !decide (Even (text.count '"'))

theorem leavesOpen_concat (front : List Char) (c : Char) :
    leavesOpen (front ++ [c]) = (leavesOpen front != (c == '"')) := by
  rw [leavesOpen, leavesOpen, List.count_append, List.count_singleton]
  by_cases hc : c = '"'
  · by_cases heven : Even (front.count '"') <;> simp [hc, heven, Nat.even_add_one]
  · simp [beq_eq_false_iff_ne.2 hc]

/-- Of what is cut, `front` is read already, and the current piece starts at `first`. -/
theorem locate_cutAtCommas {payload front back : List Char} (h : payload = front ++ back)
    {first : Nat} (hfirst : first ≤ front.length) :
    Text.Fragment.locate (byteLength (payload.take first))
        ((cutAtCommas (leavesOpen front) back).modifyHead (front.drop first ++ ·)) =
      (between first payload.length
        ((List.range' front.length back.length).filter (IsSeparator payload ·))).map
          (stretch payload) := by
  induction back generalizing front first with
  | nil =>
      rw [List.append_nil] at h
      subst h
      simp [cutAtCommas, Text.Fragment.locate, between, stretch]
  | cons c back ih =>
      have hnext : payload = (front ++ [c]) ++ back := by rw [h, List.append_assoc]; rfl
      have hlength : (front ++ [c]).length = front.length + 1 := by simp
      have hsep : IsSeparator payload front.length ↔ c = ',' ∧ Even (front.count '"') := by
        rw [h]
        exact isSeparator_append_cons
      rw [List.length_cons, List.range'_succ, List.filter_cons, cutAtCommas]
      by_cases hcut : c = ',' ∧ Even (front.count '"')
      · -- the piece ends here, and the next one starts behind the comma
        have hrest := ih hnext (Nat.le_of_eq hlength.symm)
        obtain ⟨rfl, heven⟩ := hcut
        have hclosed : leavesOpen front = false := by rw [leavesOpen, decide_eq_true heven]; rfl
        have hpiece : stretch payload (first, front.length) =
            ⟨byteLength (payload.take first), front.drop first⟩ := by
          rw [stretch, h, List.take_left]
        have hfront : byteLength (payload.take first) + byteLength (front.drop first) =
            byteLength front := by
          rw [h, List.take_append_of_le_length hfirst, ← Text.byteLength_append,
            List.take_append_drop]
        have hafter : byteLength (payload.take (front.length + 1)) = byteLength front + 1 := by
          rw [hnext, ← hlength, List.take_left, Text.byteLength_append]
          rfl
        rw [leavesOpen_concat, hclosed, ← hlength, List.drop_length, modifyHead_nil_append, hlength,
          hafter] at hrest
        rw [hclosed, if_pos (by decide), if_pos (by simpa [hsep] using heven), between,
          List.map_cons, hpiece, ← hrest, List.modifyHead_cons, List.append_nil,
          Text.Fragment.locate, hfront]
        rfl
      · -- the piece goes on
        have hle : first ≤ (front ++ [c]).length := by
          rw [hlength]
          exact Nat.le_succ_of_le hfirst
        have hrest := ih hnext hle
        rw [leavesOpen_concat, hlength, List.drop_append_of_le_length hfirst] at hrest
        rw [if_neg (by simpa [leavesOpen] using hcut), if_neg (by simpa [hsep] using hcut), ← hrest]
        exact congrArg _ (modifyHead_append (front.drop first) [c] _)

theorem locate_pieces (payload : List Char) :
    Text.Fragment.locate 0 (cutAtCommas false payload) =
      (between 0 payload.length (separators payload)).map (stretch payload) := by
  have hall := locate_cutAtCommas (List.nil_append payload).symm (Nat.le_refl 0)
  rw [List.drop_nil, modifyHead_nil_append, List.length_nil, ← List.range_eq_range'] at hall
  exact hall

theorem fields_eq_map_between (payload : List Char) :
    fields payload =
      (between 0 payload.length (separators payload)).map fun b => (stretch payload b).trim := by
  rw [fields_eq, locate_pieces, List.map_map]
  rfl

/-! ## Fields of a source -/

/-- The field is what stands between two places of the source, trimmed, and its range is that of
its text. -/
structure IsFieldBetween (source : String) (b : Nat × Nat) (f : Text.Fragment) : Prop where
  text : f.text = Text.trim ((source.toList.take b.2).drop b.1)
  extract : source.toByteArray.extract f.offset f.stop = (String.ofList f.text).toByteArray
  isValid_offset : String.Pos.Raw.IsValid source ⟨f.offset⟩
  isValid_stop : String.Pos.Raw.IsValid source ⟨f.stop⟩
  le_offset : byteLength (source.toList.take b.1) ≤ f.offset
  stop_le : f.stop ≤ byteLength (source.toList.take b.2)

theorem isFieldBetween_trim_stretch {source : String} {b : Nat × Nat}
    (h : b ∈ between 0 source.toList.length (separators source.toList)) :
    IsFieldBetween source b (stretch source.toList b).trim := by
  have hfield : (stretch source.toList b).trim ∈ fields source.toList := by
    rw [fields_eq_map_between]
    exact List.mem_map_of_mem h
  have hpart := isPart_of_mem_fields hfield
  have hstop := Text.Fragment.stop_trim_le (stretch source.toList b)
  rw [stop_stretch (le_of_mem_between_separators h)] at hstop
  exact {
    text := rfl
    extract := hpart.extract
    isValid_offset := hpart.isBoundary_offset.isValid
    isValid_stop := hpart.isBoundary_stop.isValid
    le_offset := Text.Fragment.offset_le_offset_trim (stretch source.toList b)
    stop_le := hstop }

theorem pairwise_fields (payload : List Char) :
    (fields payload).Pairwise fun f g => f.stop < g.offset := by
  rw [fields_eq, List.pairwise_map]
  exact (Text.Fragment.pairwise_locate 0 _).imp Text.Fragment.stop_trim_lt_offset_trim

/-- A separator leaves an even number of double quotes on both of its sides. -/
theorem even_count_of_mem_separators {payload : List Char} {i : Nat} (h : i ∈ separators payload) :
    Even ((payload.take i).count '"') ∧ Even ((payload.take (i + 1)).count '"') := by
  obtain ⟨-, hcomma, heven⟩ := mem_separators.1 h
  refine ⟨heven, ?_⟩
  rw [List.take_add_one, hcomma, List.count_append]
  exact heven

theorem even_count_of_mem_dropLast_fields {payload : List Char} {f : Text.Fragment}
    (h : f ∈ (fields payload).dropLast) : Even (f.text.count '"') := by
  rw [fields_eq_map_between, ← List.map_dropLast] at h
  obtain ⟨b, hb, rfl⟩ := List.mem_map.1 h
  obtain ⟨hbefore, hthrough⟩ :=
    forall_mem_dropLast_between (P := fun i => Even ((payload.take i).count '"'))
      (by simp) (fun _ => even_count_of_mem_separators) hb
  have hle := le_of_mem_between_separators (List.dropLast_subset _ hb)
  rw [← take_append_text_stretch hle, List.count_append, Nat.even_add] at hthrough
  change Even ((Text.trim (stretch payload b).text).count '"')
  rw [Text.count_trim (by decide)]
  exact hthrough.1 hbefore

/-- The double quote after `front` opens, and none closes it. -/
structure IsOpenQuote (payload front rest : List Char) : Prop where
  eq_append : payload = front ++ '"' :: rest
  even_count : Even (front.count '"')
  notMem : '"' ∉ rest

/-- A payload is not cut any more once a quote is open for good. -/
theorem IsOpenQuote.lt_of_mem_separators {payload front rest : List Char}
    (h : IsOpenQuote payload front rest) {i : Nat} (hi : i ∈ separators payload) :
    i < front.length := by
  obtain ⟨-, hcomma, heven⟩ := mem_separators.1 hi
  by_contra hge
  obtain ⟨n, rfl⟩ := Nat.exists_eq_add_of_le (Nat.le_of_not_lt hge)
  rw [h.eq_append] at hcomma heven
  -- at the quote there is no comma, and behind it the number of quotes stays odd
  cases n with
  | zero =>
      obtain ⟨hc, -⟩ := isSeparator_append_cons.1 ⟨hcomma, heven⟩
      exact absurd hc (by decide)
  | succ n =>
      have hrest : (rest.take n).count '"' = 0 :=
        List.count_eq_zero.2 fun hmem => h.notMem (List.mem_of_mem_take hmem)
      rw [List.take_length_add_append, List.take_succ_cons, List.count_append,
        List.count_cons_self, hrest, Nat.even_add_one] at heven
      exact heven h.even_count

theorem IsOpenQuote.exists_last {payload front rest : List Char}
    (h : IsOpenQuote payload front rest) :
    ∃ last, (fields payload).getLast? = some last ∧ Text.trimEnd ('"' :: rest) <:+ last.text ∧
      last.stop = byteLength (front ++ Text.trimEnd ('"' :: rest)) := by
  -- the last piece starts behind the last separator, so in front of the quote
  obtain ⟨first, hlast, hfirst⟩ : ∃ first,
      (between 0 payload.length (separators payload)).getLast? = some (first, payload.length) ∧
        first ≤ front.length := by
    refine ⟨_, getLast?_between _ _ _, ?_⟩
    cases hend : ((separators payload).map (· + 1)).getLast? with
    | none => exact Nat.zero_le _
    | some next =>
        obtain ⟨i, hi, rfl⟩ := List.mem_map.1 (List.mem_of_getLast? hend)
        exact h.lt_of_mem_separators hi
  have hpiece : stretch payload (first, payload.length) =
      ⟨byteLength (front.take first), front.drop first ++ '"' :: rest⟩ := by
    rw [stretch, List.take_length, h.eq_append, List.take_append_of_le_length hfirst,
      List.drop_append_of_le_length hfirst]
  refine ⟨(stretch payload (first, payload.length)).trim, ?_, ?_, ?_⟩
  · rw [fields_eq_map_between, List.getLast?_map, hlast, Option.map_some]
  · rw [hpiece, Text.Fragment.trim, Text.trim_append_cons (by decide)]
    exact List.suffix_append _ _
  · rw [hpiece, Text.Fragment.stop_trim_append_cons (by decide), ← Text.byteLength_append,
      List.take_append_drop, Text.byteLength_append]

/-- **A source is cut at the commas that an even number of double quotes precedes.**  Reading it as
fields does not fail.  Each field is what stands between two such commas, or between one and an end
of the source, trimmed; its range cuts no character, and ranges come in order and do not meet.  Only
the last field can hold a quote without a partner, and a quote that is never closed reaches to the
end. -/
theorem fields_separated (source : String) :
    (pieces? source.toList).isSome = true ∧
      (fields source.toList).length = 1 + (separators source.toList).length ∧
      List.Forall₂ (IsFieldBetween source)
        (between 0 source.toList.length (separators source.toList)) (fields source.toList) ∧
      ((fields source.toList).Pairwise fun f g => f.stop < g.offset) ∧
      (∀ f ∈ (fields source.toList).dropLast, Even (f.text.count '"')) ∧
      ∀ front rest, IsOpenQuote source.toList front rest →
        ∃ last, (fields source.toList).getLast? = some last ∧
          Text.trimEnd ('"' :: rest) <:+ last.text ∧
          last.stop = byteLength (front ++ Text.trimEnd ('"' :: rest)) := by
  refine ⟨by rw [pieces?_eq, Option.isSome_some], ?_, ?_, pairwise_fields _,
    fun f => even_count_of_mem_dropLast_fields, fun front rest => IsOpenQuote.exists_last⟩
  · rw [fields_eq_map_between, List.length_map, length_between]
  · rw [fields_eq_map_between, List.forall₂_map_right_iff, List.forall₂_same]
    exact fun b => isFieldBetween_trim_stretch

/-- A comma in quotes, an empty field, a quote that stays open, and blanks of two and three
bytes. -/
def unclosed : String := "\u3000a , \"b,\u00a0c\",,x \"d, e\u3000"

theorem fields_separated_unclosed :
    IsOpenQuote unclosed.toList (unclosed.toList.take 15) "d, e\u3000".toList ∧
      separators unclosed.toList = [3, 11, 12] ∧ (fields unclosed.toList).length = 4 ∧
      ∃ last, (fields unclosed.toList).getLast? = some last ∧
        "\"d, e".toList <:+ last.text ∧ last.stop = 23 := by
  have hseps : separators unclosed.toList = [3, 11, 12] := by decide +kernel
  have hquote : IsOpenQuote unclosed.toList (unclosed.toList.take 15) "d, e\u3000".toList := {
    eq_append := by decide
    even_count := by decide
    notMem := by decide }
  obtain ⟨-, hlength, -, -, -, hopen⟩ := fields_separated unclosed
  obtain ⟨last, hlast, hsuffix, hstop⟩ := hopen _ _ hquote
  have htrim : Text.trimEnd ('"' :: "d, e\u3000".toList) = "\"d, e".toList := by decide
  rw [htrim] at hsuffix hstop
  rw [hseps] at hlength
  exact ⟨hquote, hseps, hlength, last, hlast, hsuffix, hstop⟩

end EventModel.Document
