import EventModel.Proofs.Source.Keywords
import Mathlib.Data.List.Pairwise

/-!
# Scanning a document for lines

The meaningful lines of a document are its pieces between line feeds, trimmed, less those
that are blank or start with `#` (`map_text_scan`).  Their numbers ascend
(`pairwise_number_scan`), so no two of them are equal.
-/

namespace EventModel

/-! ## Pieces between line feeds -/

theorem newline_notMem_of_mem_splitOn {cs piece : List Char} (h : piece ∈ cs.splitOn '\n') :
    '\n' ∉ piece := by
  induction cs generalizing piece with
  | nil =>
      rw [List.splitOn_nil, List.mem_singleton] at h
      simp [h]
  | cons c cs ih =>
      rw [List.splitOn_cons_eq_if_modifyHead] at h
      by_cases hc : c = '\n'
      · rw [if_pos (by simp [hc]), List.mem_cons] at h
        rcases h with rfl | h
        · simp
        · exact ih h
      · rw [if_neg (by simp [hc])] at h
        cases hpieces : cs.splitOn '\n' with
        | nil => exact absurd hpieces (List.splitOn_ne_nil _ _)
        | cons first others =>
            rw [hpieces, List.modifyHead_cons, List.mem_cons] at h
            rcases h with rfl | h
            · rw [List.mem_cons, not_or]
              exact ⟨fun heq => hc heq.symm, ih (by simp [hpieces])⟩
            · exact ih (by simp [hpieces, h])

/-! ## Meaningful lines -/

namespace Line

/-- A piece makes up a line if it is neither blank nor a comment. -/
theorem ofFragment?_eq_some_iff {piece : Text.Fragment × Nat} {line : Line} :
    ofFragment? piece = some line ↔ isMeaningful (Text.trim piece.1.text) = true ∧
      line = ⟨piece.2, String.ofList (Text.trim piece.1.text), piece.1.trim.span⟩ := by
  unfold ofFragment?
  by_cases h : isMeaningful (Text.trim piece.1.text) = true
  · simp [Text.Fragment.trim, h, eq_comm]
  · simp [Text.Fragment.trim, h]

theorem map_ofFragment? (piece : Text.Fragment × Nat) :
    (ofFragment? piece).map (·.text.toList) =
      (some (Text.trim piece.1.text)).filter isMeaningful := by
  unfold ofFragment?
  by_cases h : isMeaningful (Text.trim piece.1.text) = true
  · simp [Text.Fragment.trim, h, Option.filter]
  · simp [Text.Fragment.trim, h, Option.filter]

theorem map_text_zipIdx_locate (pieces : List (List Char)) :
    ((Text.Fragment.locate 0 pieces).zipIdx 1).map (fun piece => piece.1.text) = pieces := by
  have hcomp : (fun piece : Text.Fragment × Nat => piece.1.text) =
      Text.Fragment.text ∘ Prod.fst := rfl
  rw [hcomp, ← List.map_map, List.zipIdx_map_fst, Text.Fragment.map_text_locate]

/-- The texts of the meaningful lines, read off the pieces of the document. -/
theorem map_text_scan (source : String) :
    (scan source).map (·.text.toList) =
      ((source.toList.splitOn '\n').map Text.trim).filter isMeaningful := by
  rw [scan]
  generalize source.toList.splitOn '\n' = pieces
  have hpieces := map_text_zipIdx_locate pieces
  rw [List.map_filterMap, ← List.filterMap_eq_filter, List.filterMap_map]
  conv => rhs; rw [← hpieces]
  rw [List.filterMap_map]
  apply List.filterMap_congr
  intro piece _
  rw [map_ofFragment?]
  rfl

theorem text_of_mem_scan {source : String} {line : Line} (h : line ∈ scan source) :
    ∃ piece ∈ source.toList.splitOn '\n',
      line.text.toList = Text.trim piece ∧ isMeaningful (Text.trim piece) = true := by
  have hmem : line.text.toList ∈ (scan source).map (·.text.toList) :=
    List.mem_map_of_mem h
  rw [map_text_scan, List.mem_filter, List.mem_map] at hmem
  obtain ⟨⟨piece, hpiece, heq⟩, hmeaning⟩ := hmem
  exact ⟨piece, hpiece, heq.symm, by rw [heq]; exact hmeaning⟩

theorem newline_notMem_text {source : String} {line : Line} (h : line ∈ scan source) :
    '\n' ∉ line.text.toList := by
  obtain ⟨piece, hpiece, htext, -⟩ := text_of_mem_scan h
  rw [htext]
  exact fun hmem => newline_notMem_of_mem_splitOn hpiece (Text.mem_of_mem_trim hmem)

theorem trim_text {source : String} {line : Line} (h : line ∈ scan source) :
    Text.trim line.text.toList = line.text.toList := by
  obtain ⟨piece, -, htext, -⟩ := text_of_mem_scan h
  rw [htext, Text.trim_trim]

theorem isMeaningful_text {source : String} {line : Line} (h : line ∈ scan source) :
    isMeaningful line.text.toList = true := by
  obtain ⟨piece, -, htext, hmeaning⟩ := text_of_mem_scan h
  rw [htext, hmeaning]

theorem number_of_ofFragment? {piece : Text.Fragment × Nat} {line : Line}
    (h : ofFragment? piece = some line) : line.number = piece.2 := by
  rw [(ofFragment?_eq_some_iff.1 h).2]

theorem pairwise_number_scan (source : String) :
    (scan source).Pairwise fun a b => a.number < b.number := by
  rw [scan, List.pairwise_filterMap]
  have hnumbers : ((Text.Fragment.locate 0 (source.toList.splitOn '\n')).zipIdx 1).Pairwise
      fun a b => a.2 < b.2 := by
    rw [← List.pairwise_map (f := Prod.snd) (R := (· < ·)), List.zipIdx_map_snd]
    exact List.pairwise_lt_range'
  refine hnumbers.imp fun hlt a ha b hb => ?_
  rw [number_of_ofFragment? ha, number_of_ofFragment? hb]
  exact hlt

end Line

namespace Statement

theorem pairwise_number_scan (source : String) :
    (scan source).Pairwise fun a b => a.line.number < b.line.number := by
  rw [scan, List.pairwise_map]
  simpa using Line.pairwise_number_scan source

theorem line_mem_scan {source : String} {s : Statement} (h : s ∈ scan source) :
    s.line ∈ Line.scan source ∧ s = ofLine s.line := by
  obtain ⟨line, hline, rfl⟩ := List.mem_map.1 h
  rw [line_ofLine]
  exact ⟨hline, rfl⟩

theorem nodup_line_scan (source : String) : ((scan source).map (·.line)).Nodup := by
  rw [List.Nodup, List.pairwise_map]
  refine (pairwise_number_scan source).imp fun hlt heq => ?_
  rw [heq] at hlt
  exact absurd hlt (Nat.lt_irrefl _)

/-- The payload is the end of its line. -/
theorem payload_suffix (line : Line) : (ofLine line).payload <:+ line.text.toList := by
  rw [ofLine]
  cases hsplit : Directive.split? line.text.toList with
  | none => exact List.suffix_refl _
  | some parts =>
      obtain ⟨blanks, hopens⟩ := Directive.split?_eq_some_iff.1 hsplit
      rw [hopens.split]
      exact (List.suffix_cons ':' parts.2).trans (List.suffix_append _ _)

theorem newline_notMem_payload {source : String} {s : Statement} (h : s ∈ scan source) :
    '\n' ∉ s.payload := by
  obtain ⟨hline, heq⟩ := line_mem_scan h
  rw [heq]
  exact fun hmem => Line.newline_notMem_text hline ((payload_suffix s.line).subset hmem)

end Statement

end EventModel
