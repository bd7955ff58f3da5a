import EventModel.Proofs.Source.Scanning
import EventModel.Proofs.Text.Fragments

/-!
# Where lines and payloads stand

A line knows where in the document its text stands and how many lines come before it
(`isPart_fragment`, `number_eq`), and a payload where it stands in its line.  So ranges of a
payload are found in the document again, and no bound is ever cut off (`start_locate`,
`stop_locate`, `bytes_locate`).  No two lines meet (`pairwise_span_scan`).
-/

namespace EventModel

/-- The bytes of a text that a span covers. -/
def Span.bytes (s : Span) (source : String) : ByteArray :=
  source.toByteArray.extract s.start s.stop

/-! ## Lines -/

namespace Line

/-- The text of a line, at the place that the line tells. -/
def fragment (line : Line) : Text.Fragment := ⟨line.span.start, line.text.toList⟩

theorem span_of_ofFragment? {piece : Text.Fragment × Nat} {line : Line}
    (h : ofFragment? piece = some line) : line.span = piece.1.trim.span := by
  rw [(ofFragment?_eq_some_iff.1 h).2]

/-- A line is one of the pieces between line feeds, trimmed. -/
theorem exists_of_mem_scan {source : String} {line : Line} (h : line ∈ scan source) :
    ∃ piece number, (piece, number) ∈
        (Text.Fragment.locate 0 (source.toList.splitOn '\n')).zipIdx 1 ∧
      line.number = number ∧ line.fragment = piece.trim ∧ line.span = piece.trim.span := by
  obtain ⟨⟨piece, number⟩, hpiece, hline⟩ := List.mem_filterMap.1 h
  refine ⟨piece, number, hpiece, number_of_ofFragment? hline, ?_⟩
  refine ⟨?_, span_of_ofFragment? hline⟩
  rw [(ofFragment?_eq_some_iff.1 hline).2, fragment, String.toList_ofList]
  rfl

theorem isPart_fragment {source : String} {line : Line} (h : line ∈ scan source) :
    line.fragment.IsPart source.toList := by
  obtain ⟨piece, number, hpiece, -, hfragment, -⟩ := exists_of_mem_scan h
  have hmem : piece ∈ Text.Fragment.locate 0 (source.toList.splitOn '\n') := by
    rw [← List.zipIdx_map_fst 1 (Text.Fragment.locate 0 _)]
    exact List.mem_map_of_mem hpiece
  have hpart := Text.Fragment.isPart_of_mem_locate (by decide : '\n'.utf8Size = 1) hmem
  rw [List.intercalate_splitOn] at hpart
  rw [hfragment]
  exact hpart.trim

theorem stop_span {source : String} {line : Line} (h : line ∈ scan source) :
    line.span.stop = line.fragment.stop := by
  obtain ⟨piece, number, -, -, hfragment, hspan⟩ := exists_of_mem_scan h
  rw [hfragment, hspan]
  rfl

theorem bytes_span {source : String} {line : Line} (h : line ∈ scan source) :
    line.span.bytes source = line.text.toByteArray := by
  have hbytes := (isPart_fragment h).extract
  rw [← stop_span h, fragment, String.ofList_toList] at hbytes
  exact hbytes

/-- The line feeds in front of a line are those that end the pieces before it. -/
theorem number_eq {source : String} {line : Line} (h : line ∈ scan source) :
    ∃ before after, source.toList = before ++ after ∧
      line.span.start = Text.byteLength before ∧ line.number = 1 + before.count '\n' := by
  obtain ⟨piece, number, hpiece, hnumber, -, hspan⟩ := exists_of_mem_scan h
  obtain ⟨front, back, hpieces, hoffset, hlength⟩ :=
    Text.Fragment.exists_of_mem_zipIdx_locate (by decide : '\n'.utf8Size = 1) hpiece
  obtain ⟨after, hafter⟩ := Text.Fragment.intercalate_split '\n' front back piece.text
  have hplain : ∀ p ∈ source.toList.splitOn '\n', '\n' ∉ p :=
    fun p hp => newline_notMem_of_mem_splitOn hp
  rw [hpieces] at hplain
  have hfront : (front.flatMap (· ++ ['\n'])).count '\n' = front.length :=
    Text.Fragment.count_separators fun p hp => hplain p (List.mem_append_left _ hp)
  -- the white space in front of the text holds no line feed
  have hblank : (piece.text.takeWhile Text.isBlank).count '\n' = 0 := by
    refine List.count_eq_zero_of_not_mem fun hmem => ?_
    exact hplain piece.text (List.mem_append_right _ List.mem_cons_self)
      ((List.takeWhile_prefix _).subset hmem)
  have hsource : source.toList =
      front.flatMap (· ++ ['\n']) ++ piece.text.takeWhile Text.isBlank ++
        (piece.text.dropWhile Text.isBlank ++ after) :=
    calc source.toList = ['\n'].intercalate (front ++ piece.text :: back) := by
          rw [← hpieces, List.intercalate_splitOn]
      _ = front.flatMap (· ++ ['\n']) ++ piece.text ++ after := hafter
      _ = _ := by
          conv => lhs; rw [← List.takeWhile_append_dropWhile (p := Text.isBlank) (l := piece.text)]
          simp only [List.append_assoc]
  have hstart : line.span.start =
      Text.byteLength (front.flatMap (· ++ ['\n']) ++ piece.text.takeWhile Text.isBlank) := by
    rw [hspan, Text.byteLength_append]
    change piece.offset + _ = _
    rw [hoffset, Nat.zero_add]
  refine ⟨_, _, hsource, hstart, ?_⟩
  rw [List.count_append, hfront, hblank, hnumber, hlength, Nat.add_zero]

/-- Lines come in the order of their pieces, each at least a line feed behind the one before. -/
theorem pairwise_span_scan (source : String) :
    (scan source).Pairwise fun a b => a.span.stop < b.span.start := by
  rw [scan, List.pairwise_filterMap]
  have hpieces : ((Text.Fragment.locate 0 (source.toList.splitOn '\n')).zipIdx 1).Pairwise
      fun a b => a.1.stop < b.1.offset := by
    rw [← List.pairwise_map (f := Prod.fst)
      (R := fun a b : Text.Fragment => a.stop < b.offset), List.zipIdx_map_fst]
    exact Text.Fragment.pairwise_locate 0 _
  refine hpieces.imp fun hlt line hline line' hline' => ?_
  rw [span_of_ofFragment? hline, span_of_ofFragment? hline']
  exact Text.Fragment.stop_trim_lt_offset_trim hlt

theorem isBoundary_start {source : String} {line : Line} (h : line ∈ scan source) :
    Text.IsBoundary source.toList line.span.start :=
  (isPart_fragment h).isBoundary_offset

theorem isBoundary_stop {source : String} {line : Line} (h : line ∈ scan source) :
    Text.IsBoundary source.toList line.span.stop := by
  rw [stop_span h]
  exact (isPart_fragment h).isBoundary_stop

theorem text_ne_empty {source : String} {line : Line} (h : line ∈ scan source) :
    line.text ≠ "" := by
  intro hempty
  have hmeaning := isMeaningful_text h
  rw [hempty] at hmeaning
  exact absurd hmeaning (by decide)

end Line

/-! ## Payloads -/

namespace Statement

theorem isPart_payload {source : String} {s : Statement} (h : s ∈ scan source) :
    Text.Fragment.IsPart ⟨s.payloadOffset, s.payload⟩ s.line.text.toList := by
  obtain ⟨-, hs⟩ := line_mem_scan h
  obtain ⟨before, hbefore⟩ := payload_suffix s.line
  rw [← hs] at hbefore
  refine ⟨before, [], ?_, ?_⟩
  · rw [List.append_nil, hbefore]
  · rw [payloadOffset, ← hbefore, Text.byteLength_append]
    exact Nat.add_sub_cancel _ _

theorem payload_fits {source : String} {s : Statement} (h : s ∈ scan source) {n : Nat}
    (hn : n ≤ Text.byteLength s.payload) :
    s.line.span.start + (s.payloadOffset + n) ≤ s.line.span.stop := by
  have hstop := (isPart_payload h).isBoundary_stop.le
  rw [Line.stop_span (line_mem_scan h).1]
  simp only [Text.Fragment.stop, Line.fragment] at hstop ⊢
  omega

theorem start_locate {source : String} {s : Statement} (h : s ∈ scan source) {first last : Nat}
    (hle : first ≤ last) (hlast : last ≤ Text.byteLength s.payload) :
    (s.locate first last).start = s.line.span.start + s.payloadOffset + first := by
  rw [locate, (s.line.span.sub_of_fits (by omega) (payload_fits h hlast)).1, Nat.add_assoc]

theorem stop_locate {source : String} {s : Statement} (h : s ∈ scan source) {first last : Nat}
    (hle : first ≤ last) (hlast : last ≤ Text.byteLength s.payload) :
    (s.locate first last).stop = s.line.span.start + s.payloadOffset + last := by
  rw [locate, (s.line.span.sub_of_fits (by omega) (payload_fits h hlast)).2, Nat.add_assoc]

/-- What is located in a payload covers the bytes of what is written there. -/
theorem bytes_locate {source : String} {s : Statement} (h : s ∈ scan source)
    {f : Text.Fragment} (hf : f.IsPart s.payload) :
    (s.locate f.offset f.stop).bytes source = (String.ofList f.text).toByteArray := by
  have hle : f.offset ≤ f.stop := Nat.le_add_right _ _
  have hline := (Line.isPart_fragment (line_mem_scan h).1).shift (isPart_payload h)
  have hbytes := (hline.shift hf).extract
  rw [Span.bytes, start_locate h hle hf.isBoundary_stop.le,
    stop_locate h hle hf.isBoundary_stop.le, Text.Fragment.stop, ← Nat.add_assoc]
  exact hbytes

theorem isBoundary_locate {source : String} {s : Statement} (h : s ∈ scan source)
    {first last : Nat} (hle : first ≤ last) (hfirst : Text.IsBoundary s.payload first)
    (hlast : Text.IsBoundary s.payload last) :
    Text.IsBoundary source.toList (s.locate first last).start ∧
      Text.IsBoundary source.toList (s.locate first last).stop := by
  have hline := (Line.isPart_fragment (line_mem_scan h).1).shift (isPart_payload h)
  rw [start_locate h hle hlast.le, stop_locate h hle hlast.le]
  exact ⟨hline.isBoundary hfirst, hline.isBoundary hlast⟩

end Statement

end EventModel
