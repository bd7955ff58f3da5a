import EventModel.Proofs.Text.Trimming
import EventModel.Source.Statement
import EventModel.Text.Reader

/-!
# Keywords

A line opens with a directive if it is the keyword, spaces or tabs, a colon and the payload
(`Directive.Opens`), and is taken apart in this way and in no other (`Directive.split?_eq_some_iff`,
`Directive.Opens.unique`).
-/

namespace EventModel

namespace Directive

/-! ## Taking a line apart -/

/-- The text is the keyword of the directive and the payload, with a colon between them.  Spaces and
tabs may stand in front of the colon. -/
structure Opens (d : Directive) (text blanks payload : List Char) : Prop where
  spacing : Text.IsSpacing blanks
  split : text = d.keyword.toList ++ blanks ++ ':' :: payload

theorem isKeywordChar_of_mem_keyword {d : Directive} {c : Char} (h : c ∈ d.keyword.toList) :
    isKeywordChar c = true := by
  have hall : d.keyword.toList.all isKeywordChar = true := by
    cases d <;> decide
  exact List.all_eq_true.1 hall c h

theorem isKeywordChar_of_isSpaceOrTab {c : Char} (h : Text.isSpaceOrTab c = true) :
    isKeywordChar c = false := by
  rcases Text.isSpaceOrTab_iff.1 h with rfl | rfl <;> decide

theorem isKeywordChar_of_head?_spacing {blanks payload : List Char} (h : Text.IsSpacing blanks)
    {c : Char} (hc : (blanks ++ ':' :: payload).head? = some c) : isKeywordChar c = false := by
  cases blanks with
  | nil =>
      rw [← Option.some.inj hc]
      decide
  | cons b blanks =>
      rw [← Option.some.inj hc]
      exact isKeywordChar_of_isSpaceOrTab (Text.isSpacing_iff.1 h b List.mem_cons_self)

theorem keyword_of_ofKeyword? {word : String} {d : Directive} (h : ofKeyword? word = some d) :
    d.keyword = word := by
  simpa using List.find?_some h

/-- The keyword is read as far as its characters go, the blanks up to the colon. -/
theorem Opens.stretches {d : Directive} {text blanks payload : List Char}
    (h : d.Opens text blanks payload) :
    text.takeWhile isKeywordChar = d.keyword.toList ∧
      text.dropWhile isKeywordChar = blanks ++ ':' :: payload ∧
      (text.dropWhile isKeywordChar).takeWhile Text.isSpaceOrTab = blanks ∧
      (text.dropWhile isKeywordChar).dropWhile Text.isSpaceOrTab = ':' :: payload := by
  have hword : (d.keyword.toList ++ (blanks ++ ':' :: payload)).takeWhile isKeywordChar =
        d.keyword.toList ∧
      (d.keyword.toList ++ (blanks ++ ':' :: payload)).dropWhile isKeywordChar =
        blanks ++ ':' :: payload :=
    Text.span_append (fun _ => isKeywordChar_of_mem_keyword)
      fun _ => isKeywordChar_of_head?_spacing h.spacing
  have hblanks : (blanks ++ ':' :: payload).takeWhile Text.isSpaceOrTab = blanks ∧
      (blanks ++ ':' :: payload).dropWhile Text.isSpaceOrTab = ':' :: payload := by
    refine Text.span_append (Text.isSpacing_iff.1 h.spacing) fun c hc => ?_
    rw [← Option.some.inj hc]
    decide
  rw [h.split, List.append_assoc, hword.1, hword.2]
  exact ⟨rfl, rfl, hblanks⟩

/-- A text can be taken apart in one way at most. -/
theorem Opens.unique {d d' : Directive} {text blanks payload blanks' payload' : List Char}
    (h : d.Opens text blanks payload) (h' : d'.Opens text blanks' payload') :
    d = d' ∧ blanks = blanks' ∧ payload = payload' := by
  obtain ⟨hword, -, hblanks, hrest⟩ := h.stretches
  obtain ⟨hword', -, hblanks', hrest'⟩ := h'.stretches
  rw [hword] at hword'
  rw [hblanks] at hblanks'
  rw [hrest] at hrest'
  exact ⟨keyword_injective (String.toList_inj.1 hword'), hblanks', (List.cons.inj hrest').2⟩

theorem split?_eq_some_iff {d : Directive} {text payload : List Char} :
    split? text = some (d, payload) ↔ ∃ blanks, d.Opens text blanks payload := by
  constructor
  · intro h
    unfold split? at h
    split at h
    · rename_i rest hrest
      obtain ⟨e, he, heq⟩ := Option.map_eq_some_iff.1 h
      obtain ⟨rfl, rfl⟩ := Prod.mk.inj heq
      refine ⟨(text.dropWhile isKeywordChar).takeWhile Text.isSpaceOrTab,
        Text.isSpacing_iff.2 fun c hc => List.mem_takeWhile_imp hc, ?_⟩
      rw [keyword_of_ofKeyword? he, String.toList_ofList, ← hrest, List.append_assoc,
        List.takeWhile_append_dropWhile, List.takeWhile_append_dropWhile]
    · exact absurd h (by simp)
  · rintro ⟨blanks, h⟩
    obtain ⟨hword, -, -, hrest⟩ := h.stretches
    rw [split?, hrest, hword, String.ofList_toList]
    simp only [ofKeyword?_keyword, Option.map_some]

theorem split?_keyword (d : Directive) (payload : List Char) :
    split? (d.keyword.toList ++ ':' :: payload) = some (d, payload) :=
  split?_eq_some_iff.2 ⟨[], by decide, by rw [List.append_nil]⟩

/-! ## Putting a line together -/

/-- A line that opens with a directive, with white space in front. -/
def lineWith (d : Directive) (lead blanks payload : List Char) : List Char :=
  lead ++ (d.keyword.toList ++ blanks ++ ':' :: payload)

theorem exists_keyword_eq (d : Directive) :
    ∃ c cs, d.keyword.toList = c :: cs ∧ Text.isBlank c = false ∧ c ≠ '#' := by
  cases d <;> exact ⟨_, _, rfl, by decide, by decide⟩

theorem trim_lineWith {lead : List Char} (hlead : Text.IsGap lead) (d : Directive)
    (blanks payload : List Char) :
    Text.trim (d.lineWith lead blanks payload) =
      d.keyword.toList ++ blanks ++ ':' :: Text.trimEnd payload := by
  obtain ⟨c, cs, hkeyword, hc, -⟩ := d.exists_keyword_eq
  have hstart : Text.trimStart (d.lineWith lead blanks payload) =
      d.keyword.toList ++ blanks ++ ':' :: payload := by
    rw [lineWith, Text.trimStart_append_of_blank fun b hb => (hlead b hb).1, hkeyword]
    exact List.dropWhile_cons_of_neg (by simp [hc])
  rw [Text.trim, hstart, Text.trimEnd_append_cons (by decide), Text.trimEnd_cons (by decide)]

theorem opens_trim_lineWith {lead blanks : List Char} (hlead : Text.IsGap lead)
    (hblanks : Text.IsSpacing blanks) (d : Directive) (payload : List Char) :
    d.Opens (Text.trim (d.lineWith lead blanks payload)) blanks (Text.trimEnd payload) :=
  ⟨hblanks, trim_lineWith hlead d blanks payload⟩

end Directive

end EventModel
