import EventModel.Proofs.Lists
import EventModel.Proofs.Source.Location

/-!
# What the statements of a source are

The statements of a source are its pieces between line feeds, trimmed, less those that are blank or
start with `#`.  A statement has a directive if its line is a keyword, spaces or tabs, a colon and
the payload; a line can be taken apart like this in one way at most.  Ranges of a payload are found
in the source byte by byte (`scan_classified`).
-/

namespace EventModel

/-! ## Statements -/

namespace Statement

theorem directive_eq_some_iff {source : String} {s : Statement} (h : s ∈ scan source)
    {d : Directive} {payload : List Char} :
    s.directive = some d ∧ s.payload = payload ↔
      ∃ blanks, d.Opens s.line.text.toList blanks payload := by
  obtain ⟨line, -, rfl⟩ := List.mem_map.1 h
  rw [← Directive.split?_eq_some_iff, line_ofLine, ofLine]
  cases Directive.split? line.text.toList with
  | none => simp
  | some parts => simp [Prod.ext_iff]

theorem payload_of_directive_none {source : String} {s : Statement} (h : s ∈ scan source)
    (hnone : s.directive = none) : s.payload = s.line.text.toList := by
  obtain ⟨line, -, rfl⟩ := List.mem_map.1 h
  rw [line_ofLine]
  unfold ofLine at hnone ⊢
  split
  · rename_i hsplit
    simp [hsplit] at hnone
  · rfl

/-- A range of bytes of a payload covers these bytes of the source. -/
theorem bytes_locate_range {source : String} {s : Statement} (h : s ∈ scan source)
    {first last : Nat} (hle : first ≤ last) (hlast : last ≤ Text.byteLength s.payload) :
    (s.locate first last).bytes source =
      (String.ofList s.payload).toByteArray.extract first last := by
  have hline := (Line.isPart_fragment (line_mem_scan h).1).shift (isPart_payload h)
  rw [Span.bytes, start_locate h hle hlast, stop_locate h hle hlast, ← hline.extract,
    ByteArray.extract_extract]
  congr 1
  change _ = min _ (_ + Text.byteLength s.payload)
  exact (Nat.min_eq_left (Nat.add_le_add_left hlast _)).symm

/-! ## The statements of a source -/

/-- Whether a piece of a source is neither blank nor a comment. -/
def isLine (piece : List Char × Nat) : Bool :=
  decide (Text.trim piece.1 ≠ [] ∧ (Text.trim piece.1).head? ≠ some '#')

theorem isLine_eq (piece : List Char × Nat) :
    isLine piece = Line.isMeaningful (Text.trim piece.1) := by
  rw [isLine]
  cases Text.trim piece.1 with
  | nil => rfl
  | cons c cs =>
      by_cases hc : c = '#'
      · simp [Line.isMeaningful, hc]
      · simp [Line.isMeaningful, hc]

/-- The statement has the text of a piece, trimmed, and its number. -/
structure IsMadeOf (piece : List Char × Nat) (s : Statement) : Prop where
  text : s.line.text.toList = Text.trim piece.1
  number : s.line.number = piece.2

theorem forall₂_isMadeOf_scan (source : String) :
    List.Forall₂ IsMadeOf (((source.toList.splitOn '\n').zipIdx 1).filter isLine)
      (scan source) := by
  have hpieces : (source.toList.splitOn '\n').zipIdx 1 =
      ((Text.Fragment.locate 0 (source.toList.splitOn '\n')).zipIdx 1).map
        (Prod.map Text.Fragment.text id) := by
    rw [List.map_zipIdx, Text.Fragment.map_text_locate]
  rw [hpieces, List.filter_map, List.forall₂_map_left_iff, scan, Line.scan, List.map_filterMap]
  refine forall₂_filter_filterMap (fun piece _ hpiece => ?_) fun piece _ hpiece => ?_
  · rw [Function.comp_apply, isLine_eq] at hpiece
    refine ⟨_, Option.map_eq_some_iff.2 ⟨_, Line.ofFragment?_eq_some_iff.2 ⟨hpiece, rfl⟩, rfl⟩,
      ?_, ?_⟩
    · rw [line_ofLine, String.toList_ofList]
      rfl
    · rw [line_ofLine]
      rfl
  · rw [Function.comp_apply, isLine_eq] at hpiece
    rw [Option.map_eq_none_iff, Option.eq_none_iff_forall_ne_some]
    intro line hline
    have hmeaning := (Line.ofFragment?_eq_some_iff.1 hline).1
    exact Bool.eq_false_iff.1 hpiece hmeaning

/-- A piece that is neither blank nor a comment makes up a statement. -/
theorem exists_isMadeOf {source : String} {piece : List Char × Nat}
    (h : piece ∈ (source.toList.splitOn '\n').zipIdx 1) (hline : isLine piece = true) :
    ∃ s ∈ scan source, IsMadeOf piece s :=
  exists_of_forall₂ (forall₂_isMadeOf_scan source) (List.mem_filter.2 ⟨h, hline⟩)

/-- A line that opens with a directive makes up a statement with the payload, up to white space at
its end. -/
theorem exists_of_lineWith {source : String} {number : Nat} {d : Directive}
    {lead blanks payload : List Char} (hlead : Text.IsGap lead) (hblanks : Text.IsSpacing blanks)
    (h : (d.lineWith lead blanks payload, number) ∈ (source.toList.splitOn '\n').zipIdx 1) :
    ∃ s ∈ scan source, s.line.number = number ∧ s.directive = some d ∧
      s.payload = Text.trimEnd payload := by
  have hopens := Directive.opens_trim_lineWith hlead hblanks d payload
  have hline : isLine (d.lineWith lead blanks payload, number) = true := by
    obtain ⟨c, cs, hkeyword, -, hc⟩ := d.exists_keyword_eq
    rw [isLine_eq, hopens.split, hkeyword]
    exact bne_iff_ne.2 hc
  obtain ⟨s, hs, hmade⟩ := exists_isMadeOf h hline
  refine ⟨s, hs, hmade.number, (directive_eq_some_iff hs).2 ⟨blanks, ?_⟩⟩
  rw [hmade.text]
  exact hopens

/-- A text without line feeds is one piece. -/
theorem scan_single {text : List Char} (hnewline : '\n' ∉ text) (hline : isLine (text, 1) = true) :
    ∃ s, scan (String.ofList text) = [s] ∧ IsMadeOf (text, 1) s := by
  have hscan := forall₂_isMadeOf_scan (String.ofList text)
  rw [String.toList_ofList, List.splitOn_eq_singleton hnewline, List.zipIdx_singleton,
    List.filter_cons_of_pos hline, List.filter_nil] at hscan
  obtain ⟨s, ss, hs, hnil, hcons⟩ := List.forall₂_cons_left_iff.1 hscan
  rw [List.forall₂_nil_left_iff.1 hnil] at hcons
  exact ⟨s, hcons, hs⟩

theorem pairwise_span_scan (source : String) :
    (scan source).Pairwise fun s t => s.line.span.stop < t.line.span.start := by
  rw [scan, List.pairwise_map]
  simpa using Line.pairwise_span_scan source

/-- What a statement tells about the source: where its text stands, how many line feeds come before
it, which directive it opens with, and where ranges of its payload stand. -/
structure IsClassified (source : String) (s : Statement) : Prop where
  stop : s.line.span.stop = s.line.span.start + Text.byteLength s.line.text.toList
  bytes : s.line.span.bytes source = s.line.text.toByteArray
  number : ∃ before after, source.toList = before ++ after ∧
    s.line.span.start = Text.byteLength before ∧ s.line.number = 1 + before.count '\n'
  directive : ∀ d payload, s.directive = some d ∧ s.payload = payload ↔
    ∃ blanks, d.Opens s.line.text.toList blanks payload
  unique : ∀ (d d' : Directive) (blanks payload blanks' payload'),
    d.Opens s.line.text.toList blanks payload → d'.Opens s.line.text.toList blanks' payload' →
      d = d' ∧ blanks = blanks' ∧ payload = payload'
  unknown : s.directive = none → s.payload = s.line.text.toList
  locate : ∀ first last, first ≤ last → last ≤ Text.byteLength s.payload →
    (s.locate first last).start = s.line.span.start + s.payloadOffset + first ∧
      (s.locate first last).stop = s.line.span.start + s.payloadOffset + last ∧
      (s.locate first last).bytes source =
        (String.ofList s.payload).toByteArray.extract first last

theorem isClassified_of_mem_scan {source : String} {s : Statement} (h : s ∈ scan source) :
    IsClassified source s where
  stop := Line.stop_span (line_mem_scan h).1
  bytes := Line.bytes_span (line_mem_scan h).1
  number := Line.number_eq (line_mem_scan h).1
  directive _ _ := directive_eq_some_iff h
  unique _ _ _ _ _ _ := Directive.Opens.unique
  unknown := payload_of_directive_none h
  locate _ _ hle hlast :=
    ⟨start_locate h hle hlast, stop_locate h hle hlast, bytes_locate_range h hle hlast⟩

/-- **The statements of a source are its meaningful pieces between line feeds, in order.**  Their
ranges ascend and do not meet.  Each has its text where its range says, and as many line feeds
before it as its number says.  It has a directive if its line is a keyword, spaces or tabs, a colon
and the payload, which can be so in one way only; else its payload is the whole line.  Ranges of the
payload are never cut off and cover the same bytes of the source. -/
theorem scan_classified (source : String) :
    List.Forall₂ IsMadeOf (((source.toList.splitOn '\n').zipIdx 1).filter isLine) (scan source) ∧
      ((scan source).Pairwise fun s t => s.line.span.stop < t.line.span.start) ∧
      ∀ s ∈ scan source, IsClassified source s :=
  ⟨forall₂_isMadeOf_scan source, pairwise_span_scan source, fun _ => isClassified_of_mem_scan⟩

/-- Words that are almost keywords, a comment, and white space of two bytes in front of a line. -/
example :
    (scan "\u00a0FLOW\t : 1 to 2\n# FLOW: 1 to 2\nFLOWS: 1\n BACK_FLOW:\nFLOW_:\nflow:").map
        (fun s => (s.line.number, s.line.span.start, s.directive, s.payloadOffset)) =
      [(1, 2, some .flow, 7), (3, 32, none, 0), (4, 42, some .backFlow, 10), (5, 53, none, 0),
        (6, 60, none, 0)] := by
  decide +kernel

end Statement

end EventModel
