import EventModel.Proofs.Text.Trimming
import EventModel.Text.Fragment

/-!
# Stretches of a text

A fragment that is part of a text (`Fragment.IsPart`) stays a part of it when it is trimmed, and a
part of a part is a part of the whole.  Its bytes are those of the whole between its ends
(`Fragment.IsPart.extract`), and its ends cut no character (`IsBoundary.isValid`).
-/

namespace EventModel.Text

theorem size_utf8Encode (cs : List Char) : cs.utf8Encode.size = byteLength cs := by
  induction cs with
  | nil => rfl
  | cons c cs ih =>
      rw [List.utf8Encode_cons, ByteArray.size_append, ih, byteLength_cons,
        List.utf8Encode_singleton, List.size_toByteArray, String.length_utf8EncodeChar]

theorem byteLength_toList (s : String) : byteLength s.toList = s.utf8ByteSize := by
  rw [← size_utf8Encode, ← String.toByteArray_ofList, String.ofList_toList,
    String.size_toByteArray]

/-! ## Boundaries of characters -/

/-- The byte position cuts no character of the text. -/
def IsBoundary (cs : List Char) (n : Nat) : Prop :=
  ∃ before after, cs = before ++ after ∧ n = byteLength before

theorem isBoundary_zero (cs : List Char) : IsBoundary cs 0 := ⟨[], cs, rfl, rfl⟩

theorem isBoundary_byteLength (cs : List Char) : IsBoundary cs (byteLength cs) :=
  ⟨cs, [], (List.append_nil cs).symm, rfl⟩

theorem IsBoundary.le {cs : List Char} {n : Nat} (h : IsBoundary cs n) : n ≤ byteLength cs := by
  obtain ⟨before, after, rfl, rfl⟩ := h
  rw [byteLength_append]
  omega

theorem IsBoundary.min {cs : List Char} {m n : Nat} (hm : IsBoundary cs m)
    (hn : IsBoundary cs n) : IsBoundary cs (min m n) := by
  rcases Nat.le_total m n with hle | hle
  · rwa [Nat.min_eq_left hle]
  · rwa [Nat.min_eq_right hle]

theorem IsBoundary.isValid {source : String} {n : Nat} (h : IsBoundary source.toList n) :
    String.Pos.Raw.IsValid source ⟨n⟩ := by
  obtain ⟨before, after, hsource, rfl⟩ := h
  rw [String.Pos.Raw.isValid_iff_exists_append]
  refine ⟨String.ofList before, String.ofList after, ?_, ?_⟩
  · rw [← String.ofList_append, ← hsource, String.ofList_toList]
  · rw [String.rawEndPos, ← byteLength_toList, String.toList_ofList]

namespace Fragment

/-! ## Parts of a text -/

/-- The fragment is a stretch of the text, at the place that it tells. -/
def IsPart (f : Fragment) (cs : List Char) : Prop :=
  ∃ before after, cs = before ++ f.text ++ after ∧ f.offset = byteLength before

namespace IsPart

theorem isBoundary {f : Fragment} {cs : List Char} (h : f.IsPart cs) {n : Nat}
    (hn : IsBoundary f.text n) : IsBoundary cs (f.offset + n) := by
  obtain ⟨before, after, hcs, hoffset⟩ := h
  obtain ⟨front, rest, htext, hfront⟩ := hn
  refine ⟨before ++ front, rest ++ after, ?_, ?_⟩
  · rw [hcs, htext]
    simp only [List.append_assoc]
  · rw [byteLength_append, hoffset, hfront]

theorem isBoundary_offset {f : Fragment} {cs : List Char} (h : f.IsPart cs) :
    IsBoundary cs f.offset :=
  h.isBoundary (isBoundary_zero f.text)

theorem isBoundary_stop {f : Fragment} {cs : List Char} (h : f.IsPart cs) :
    IsBoundary cs f.stop :=
  h.isBoundary (isBoundary_byteLength f.text)

/-- A part of a part is a part of the whole, where both offsets lead. -/
theorem shift {f g : Fragment} {cs : List Char} (h : f.IsPart cs) (hg : g.IsPart f.text) :
    IsPart ⟨f.offset + g.offset, g.text⟩ cs := by
  obtain ⟨before, after, hcs, hoffset⟩ := h
  obtain ⟨front, back, htext, hfront⟩ := hg
  refine ⟨before ++ front, back ++ after, ?_, ?_⟩
  · rw [hcs, htext]
    simp only [List.append_assoc]
  · rw [byteLength_append, ← hoffset, ← hfront]

theorem extract {f : Fragment} {source : String} (h : f.IsPart source.toList) :
    source.toByteArray.extract f.offset f.stop = (String.ofList f.text).toByteArray := by
  obtain ⟨before, after, hsource, hoffset⟩ := h
  have hbytes : source.toByteArray =
      before.utf8Encode ++ (f.text.utf8Encode ++ after.utf8Encode) :=
    calc source.toByteArray = (String.ofList source.toList).toByteArray := by
          rw [String.ofList_toList]
      _ = (before ++ f.text ++ after).utf8Encode := by rw [String.toByteArray_ofList, hsource]
      _ = before.utf8Encode ++ (f.text.utf8Encode ++ after.utf8Encode) := by
          rw [List.utf8Encode_append, List.utf8Encode_append, ByteArray.append_assoc]
  have hstart : f.offset = before.utf8Encode.size + 0 := by
    rw [size_utf8Encode, hoffset, Nat.add_zero]
  have hstop : f.stop = before.utf8Encode.size + f.text.utf8Encode.size := by
    rw [size_utf8Encode, size_utf8Encode, stop, hoffset]
  rw [hbytes, hstart, hstop, ByteArray.extract_append_size_add, String.toByteArray_ofList]
  exact ByteArray.extract_append_eq_left rfl

end IsPart

theorem isPart_trim (cs : List Char) : (trim ⟨0, cs⟩).IsPart cs := by
  obtain ⟨back, hback⟩ : Text.trim cs <+: cs.dropWhile isBlank := by
    rw [trim_eq_rdropWhile]
    exact List.rdropWhile_prefix isBlank _
  refine ⟨cs.takeWhile isBlank, back, ?_, Nat.zero_add _⟩
  change cs = cs.takeWhile isBlank ++ Text.trim cs ++ back
  rw [List.append_assoc, hback, List.takeWhile_append_dropWhile]

theorem IsPart.trim {f : Fragment} {cs : List Char} (h : f.IsPart cs) : f.trim.IsPart cs := by
  have hshift := h.shift (isPart_trim f.text)
  rw [Fragment.trim, Nat.zero_add] at hshift
  exact hshift

/-! ## Trimmed fragments -/

theorem offset_le_offset_trim (f : Fragment) : f.offset ≤ f.trim.offset := Nat.le_add_right _ _

theorem stop_trim_le (f : Fragment) : f.trim.stop ≤ f.stop := by
  obtain ⟨before, after, htext, hoffset⟩ := isPart_trim f.text
  have hbytes := congrArg byteLength htext
  rw [byteLength_append, byteLength_append, ← hoffset] at hbytes
  change f.offset + byteLength (f.text.takeWhile isBlank) + byteLength (Text.trim f.text) ≤
    f.offset + byteLength f.text
  change byteLength f.text = 0 + byteLength (f.text.takeWhile isBlank) +
    byteLength (Text.trim f.text) + byteLength after at hbytes
  omega

/-- Fragments that do not meet still do not meet when they are trimmed. -/
theorem stop_trim_lt_offset_trim {f g : Fragment} (h : f.stop < g.offset) :
    f.trim.stop < g.trim.offset :=
  calc f.trim.stop ≤ f.stop := stop_trim_le f
    _ < g.offset := h
    _ ≤ g.trim.offset := offset_le_offset_trim g

theorem stop_trim_append_cons {c : Char} (hc : isBlank c = false) (offset : Nat)
    (as bs : List Char) :
    (trim ⟨offset, as ++ c :: bs⟩).stop =
      offset + byteLength as + byteLength (trimEnd (c :: bs)) := by
  have hbytes := congrArg byteLength
    (List.takeWhile_append_dropWhile (p := isBlank) (l := as ++ c :: bs))
  rw [← trimStart, trimStart_append_cons hc, byteLength_append, byteLength_append,
    byteLength_append] at hbytes
  change offset + byteLength ((as ++ c :: bs).takeWhile isBlank) +
    byteLength (Text.trim (as ++ c :: bs)) = _
  rw [trim_append_cons hc, byteLength_append]
  omega

/-! ## Pieces between separators -/

theorem le_offset_of_mem_locate {start : Nat} {pieces : List (List Char)} {f : Fragment}
    (h : f ∈ locate start pieces) : start ≤ f.offset := by
  induction pieces generalizing start with
  | nil => exact absurd h List.not_mem_nil
  | cons piece pieces ih =>
      rcases List.mem_cons.1 h with rfl | h
      · exact Nat.le_refl _
      · have hle := ih h
        omega

theorem pairwise_locate (start : Nat) (pieces : List (List Char)) :
    (locate start pieces).Pairwise fun f g => f.stop < g.offset := by
  induction pieces generalizing start with
  | nil => exact List.Pairwise.nil
  | cons piece pieces ih =>
      rw [locate, List.pairwise_cons]
      exact ⟨fun g hg => le_offset_of_mem_locate hg, ih _⟩

/-- A located piece starts where the pieces in front of it end, each with its separator. -/
theorem exists_of_mem_zipIdx_locate {sep : Char} (hsep : sep.utf8Size = 1)
    {pieces : List (List Char)} {start first : Nat} {f : Fragment} {n : Nat}
    (h : (f, n) ∈ (locate start pieces).zipIdx first) :
    ∃ front back, pieces = front ++ f.text :: back ∧
      f.offset = start + byteLength (front.flatMap (· ++ [sep])) ∧ n = first + front.length := by
  induction pieces generalizing start first with
  | nil => exact absurd h List.not_mem_nil
  | cons piece pieces ih =>
      rw [locate, List.zipIdx_cons, List.mem_cons] at h
      rcases h with heq | h
      · obtain ⟨rfl, rfl⟩ := Prod.mk.inj heq
        exact ⟨[], pieces, rfl, rfl, rfl⟩
      · obtain ⟨front, back, hpieces, hoffset, hn⟩ := ih h
        refine ⟨piece :: front, back, by rw [hpieces, List.cons_append], ?_, ?_⟩
        -- the piece in front, and one byte for its separator
        · rw [List.flatMap_cons, byteLength_append, byteLength_append, byteLength_cons, hsep,
            byteLength_nil, hoffset]
          omega
        · rw [List.length_cons, hn]
          omega

theorem intercalate_split (sep : Char) (front back : List (List Char)) (piece : List Char) :
    ∃ after, [sep].intercalate (front ++ piece :: back) =
      front.flatMap (· ++ [sep]) ++ piece ++ after := by
  induction front with
  | nil =>
      cases back with
      | nil => exact ⟨[], by simp⟩
      | cons p ps => exact ⟨[sep] ++ [sep].intercalate (p :: ps), by simp⟩
  | cons p ps ih =>
      obtain ⟨after, hafter⟩ := ih
      refine ⟨after, ?_⟩
      rw [List.cons_append, List.intercalate_cons_of_ne_nil (by simp), hafter, List.flatMap_cons]
      simp only [List.append_assoc]

theorem isPart_of_mem_locate {sep : Char} (hsep : sep.utf8Size = 1) {pieces : List (List Char)}
    {f : Fragment} (h : f ∈ locate 0 pieces) : f.IsPart ([sep].intercalate pieces) := by
  rw [← List.zipIdx_map_fst 0 (locate 0 pieces)] at h
  obtain ⟨⟨g, n⟩, hg, rfl⟩ := List.mem_map.1 h
  obtain ⟨front, back, hpieces, hoffset, -⟩ := exists_of_mem_zipIdx_locate hsep hg
  obtain ⟨after, hafter⟩ := intercalate_split sep front back g.text
  refine ⟨front.flatMap (· ++ [sep]), after, ?_, ?_⟩
  · rw [hpieces, hafter]
  · rw [hoffset, Nat.zero_add]

theorem count_separators {sep : Char} {pieces : List (List Char)} (h : ∀ p ∈ pieces, sep ∉ p) :
    (pieces.flatMap (· ++ [sep])).count sep = pieces.length := by
  induction pieces with
  | nil => rfl
  | cons p ps ih =>
      rw [List.flatMap_cons, List.count_append, List.count_append,
        List.count_eq_zero_of_not_mem (h p List.mem_cons_self), List.count_singleton_self,
        ih fun q hq => h q (List.mem_cons_of_mem p hq), List.length_cons]
      omega

end Fragment

end EventModel.Text
