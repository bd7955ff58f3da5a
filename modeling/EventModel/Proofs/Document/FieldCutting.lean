import EventModel.Document.Field
import EventModel.Proofs.Text.Trimming

/-!
# Fields of a written list

Reading a payload as fields always succeeds, and comes to cutting it at the commas outside of double
quotes (`pieces?_eq`).  So a payload that lists fields, each trimmed and in one piece, is cut into
these fields again (`map_text_fields_intercalate`).  A text is in one piece if it has no comma and
no quote, or if it is quoted and has no quote inside.
-/

namespace EventModel.Document

/-- Cuts a text at its commas outside of double quotes; `quoted` tells whether a quote is
open at the start. -/
def cutAtCommas (quoted : Bool) : List Char → List (List Char)
  | [] => [[]]
  | c :: cs =>
    if c == ',' && !quoted then [] :: cutAtCommas false cs
    else (cutAtCommas (quoted != (c == '"')) cs).modifyHead (c :: ·)

theorem cutAtCommas_ne_nil (quoted : Bool) (cs : List Char) : cutAtCommas quoted cs ≠ [] := by
  induction cs generalizing quoted with
  | nil => simp [cutAtCommas]
  | cons c cs ih =>
    unfold cutAtCommas
    split
    · simp
    · have := ih (quoted != (c == '"'))
      cases h : cutAtCommas (quoted != (c == '"')) cs <;> simp_all

/-! ## Pieces -/

/-- The text stays in one piece, and leaves no quote open, wherever a payload is cut at its
commas. -/
def IsPiece (cs : List Char) : Prop :=
  ∀ rest, cutAtCommas false (cs ++ rest) = (cutAtCommas false rest).modifyHead (cs ++ ·)

theorem modifyHead_nil_append (pieces : List (List Char)) :
    pieces.modifyHead ([] ++ ·) = pieces := by
  cases pieces <;> rfl

theorem modifyHead_append (as bs : List Char) (pieces : List (List Char)) :
    (pieces.modifyHead (bs ++ ·)).modifyHead (as ++ ·) = pieces.modifyHead (as ++ bs ++ ·) := by
  cases pieces with
  | nil => rfl
  | cons p ps => rw [List.modifyHead_cons, List.modifyHead_cons, List.modifyHead_cons,
      List.append_assoc]

theorem IsPiece.append {as bs : List Char} (has : IsPiece as) (hbs : IsPiece bs) :
    IsPiece (as ++ bs) := by
  intro rest
  rw [List.append_assoc, has, hbs, modifyHead_append]

theorem isPiece_of_plain {cs : List Char} (hcomma : ',' ∉ cs) (hquote : '"' ∉ cs) :
    IsPiece cs := by
  intro rest
  induction cs with
  | nil => rw [List.nil_append, modifyHead_nil_append]
  | cons c cs ih =>
      rw [List.mem_cons, not_or] at hcomma hquote
      have hcs := ih hcomma.2 hquote.2
      rw [List.cons_append, cutAtCommas, if_neg (by simp [Ne.symm hcomma.1]),
        beq_eq_false_iff_ne.2 (Ne.symm hquote.1), bne_self_eq_false, hcs]
      exact modifyHead_append [c] cs _

/-- White space around a piece belongs to it. -/
theorem IsPiece.of_padded {inner outer : List Char} (h : Text.Padded inner outer)
    (hinner : IsPiece inner) : IsPiece outer := by
  obtain ⟨front, back, hfront, hback, rfl⟩ := h
  have hgap : ∀ cs : List Char, Text.IsGap cs → IsPiece cs := fun cs hcs =>
    isPiece_of_plain (fun hmem => absurd (hcs _ hmem).1 (by decide))
      fun hmem => absurd (hcs _ hmem).1 (by decide)
  exact ((hgap front hfront).append hinner).append (hgap back hback)

theorem cutAtCommas_quoted {cs : List Char} (h : '"' ∉ cs) (rest : List Char) :
    cutAtCommas true (cs ++ rest) = (cutAtCommas true rest).modifyHead (cs ++ ·) := by
  induction cs with
  | nil => rw [List.nil_append, modifyHead_nil_append]
  | cons c cs ih =>
      rw [List.mem_cons, not_or] at h
      have hquote : (c == '"') = false := beq_eq_false_iff_ne.2 (Ne.symm h.1)
      rw [List.cons_append, cutAtCommas, if_neg (by simp), hquote]
      change (cutAtCommas true (cs ++ rest)).modifyHead (c :: ·) = _
      rw [ih h.2]
      exact modifyHead_append [c] cs _

theorem cutAtCommas_quote (quoted : Bool) (cs : List Char) :
    cutAtCommas quoted ('"' :: cs) = (cutAtCommas (!quoted) cs).modifyHead (['"'] ++ ·) := by
  rw [cutAtCommas, if_neg (by decide +revert), beq_self_eq_true, Bool.bne_true]
  rfl

theorem isPiece_quoted {cs : List Char} (h : '"' ∉ cs) : IsPiece ('"' :: (cs ++ ['"'])) := by
  intro rest
  rw [List.cons_append, List.append_assoc, List.singleton_append, cutAtCommas_quote, Bool.not_false,
    cutAtCommas_quoted h, cutAtCommas_quote, Bool.not_true, modifyHead_append, modifyHead_append]
  rfl

/-! ## Reading pieces -/

/-- What is read from the front of a text belongs to its first piece. -/
def StartsPiece (cs taken left : List Char) : Prop :=
  cutAtCommas false cs = (cutAtCommas false left).modifyHead (taken ++ ·)

theorem StartsPiece.trans {cs first rest second left : List Char}
    (hfirst : StartsPiece cs first rest) (hsecond : StartsPiece rest second left) :
    StartsPiece cs (first ++ second) left := by
  rw [StartsPiece, hfirst, hsecond, modifyHead_append]

theorem IsPiece.startsPiece {taken : List Char} (h : IsPiece taken) (left : List Char) :
    StartsPiece (taken ++ left) taken left :=
  h left

theorem startsPiece_of_open {cs : List Char} (h : '"' ∉ cs) :
    StartsPiece ('"' :: cs) ('"' :: cs) [] := by
  have hopen := cutAtCommas_quoted h []
  rw [List.append_nil] at hopen
  rw [StartsPiece, cutAtCommas_quote, Bool.not_false, hopen, modifyHead_append]
  rfl

theorem startsPiece_of_quotedRun {cs taken left : List Char}
    (h : quotedRun.read? cs = some (taken, left)) : taken ≠ [] ∧ StartsPiece cs taken left := by
  obtain ⟨quote, inside, further, hquote, hfurther, rfl⟩ :=
    Text.Reader.read?_andThen_eq_some_iff.1 h
  obtain ⟨rfl, rfl⟩ := Text.Reader.read?_char_eq_some_iff.1 hquote
  obtain ⟨body, after, close, hbody, hclose, rfl⟩ :=
    Text.Reader.read?_andThen_eq_some_iff.1 hfurther
  obtain ⟨hbody, hafter⟩ := Prod.mk.inj (Option.some.inj hbody)
  have hplain : '"' ∉ body := by
    rw [← hbody]
    intro hmem
    have hstop := List.mem_takeWhile_imp hmem
    simp at hstop
  have hinside : inside = body ++ after := by
    rw [← hbody, ← hafter, List.takeWhile_append_dropWhile]
  refine ⟨by simp, ?_⟩
  rcases Text.Reader.read?_optional_eq_some_iff.1 hclose with hclose | ⟨hnone, rfl, rfl⟩
  · obtain ⟨rfl, rfl⟩ := Text.Reader.read?_char_eq_some_iff.1 hclose
    have hstarts := (isPiece_quoted hplain).startsPiece left
    rw [hinside]
    simpa using hstarts
  · -- what is left starts with a quote if with anything, so the quote was never closed
    have hend : left = [] := by
      cases hcase : left with
      | nil => rfl
      | cons c rest =>
          have hstop := List.head?_dropWhile_not (fun c => !(c == '"')) inside
          rw [hafter, hcase, List.head?_cons] at hstop
          have hc : c = '"' := by simpa using hstop
          rw [hcase, hc] at hnone
          exact absurd hnone (by simp [Text.Reader.char])
    rw [hend, List.append_nil] at hinside
    rw [hend, hinside, List.append_nil]
    exact startsPiece_of_open hplain

theorem startsPiece_of_bareRun {cs taken left : List Char}
    (h : bareRun.read? cs = some (taken, left)) : taken ≠ [] ∧ StartsPiece cs taken left := by
  obtain ⟨hread, hne⟩ := Text.Reader.read?_nonempty_eq_some_iff.1 h
  obtain ⟨htaken, -⟩ := Prod.mk.inj (Option.some.inj hread)
  have hplain : ∀ c ∈ taken, c ≠ ',' ∧ c ≠ '"' := by
    rw [← htaken]
    intro c hc
    have hbare := List.mem_takeWhile_imp hc
    simpa using hbare
  have hpiece : IsPiece taken :=
    isPiece_of_plain (fun hc => (hplain ',' hc).1 rfl) (fun hc => (hplain '"' hc).2 rfl)
  have hstarts := hpiece.startsPiece left
  rw [bareRun.taken_append_left h] at hstarts
  exact ⟨hne, hstarts⟩

/-- Only at a comma or at the end of the text there is no run. -/
theorem eq_of_read?_run_eq_none {cs : List Char}
    (h : (quotedRun.orElse bareRun).read? cs = none) : cs = [] ∨ ∃ rest, cs = ',' :: rest := by
  obtain ⟨hquoted, hbare⟩ := Option.or_eq_none_iff.1 h
  cases cs with
  | nil => exact Or.inl rfl
  | cons c rest =>
      by_cases hcomma : c = ','
      · exact Or.inr ⟨rest, by rw [hcomma]⟩
      · by_cases hquote : c = '"'
        · rw [hquote] at hquoted
          exact absurd hquoted (by simp [quotedRun, Text.Reader.andThen, Text.Reader.char,
            Text.Reader.takeTill, Text.Reader.optional])
        · exact absurd hbare (by simp [bareRun, Text.Reader.nonempty, Text.Reader.takeTill,
            hcomma, hquote])

theorem exists_read?_field (cs : List Char) :
    ∃ taken left, field.read? cs = some (taken, left) ∧ StartsPiece cs taken left ∧
      (left = [] ∨ ∃ rest, left = ',' :: rest) := by
  cases hrun : (quotedRun.orElse bareRun).read? cs with
  | none =>
      refine ⟨[], cs, Text.Reader.readRepeatedly?_of_none hrun, ?_, eq_of_read?_run_eq_none hrun⟩
      rw [StartsPiece, modifyHead_nil_append]
  | some run =>
      obtain ⟨first, rest⟩ := run
      have hfirst : first ≠ [] ∧ StartsPiece cs first rest := by
        rcases Option.or_eq_some_iff.1 hrun with hrun | ⟨-, hrun⟩
        · exact startsPiece_of_quotedRun hrun
        · exact startsPiece_of_bareRun hrun
      have := Text.Reader.length_left_lt hrun hfirst.1
      obtain ⟨second, left, hsecond, hstarts, hleft⟩ := exists_read?_field rest
      refine ⟨first ++ second, left, ?_, hfirst.2.trans hstarts, hleft⟩
      have hfield : field.read? cs = _ := Text.Reader.readRepeatedly?_of_some hrun
      rw [hfield, if_neg hfirst.1]
      change (field.read? rest).map _ = _
      rw [hsecond, Option.map_some]
termination_by cs.length

theorem readSeparated?_field (cs : List Char) :
    Text.Reader.readSeparated? field ',' cs = some (cutAtCommas false cs, []) := by
  obtain ⟨taken, left, hread, hstarts, rfl | ⟨rest, rfl⟩⟩ := exists_read?_field cs
  · rw [Text.Reader.readSeparated?_of_end hread, hstarts, cutAtCommas, List.modifyHead_cons,
      List.append_nil]
  · have : rest.length < cs.length := by
      rw [← field.taken_append_left hread, List.length_append, List.length_cons]
      omega
    rw [Text.Reader.readSeparated?_of_sep hread (readSeparated?_field rest), hstarts, cutAtCommas,
      if_pos (by decide), List.modifyHead_cons, List.append_nil]
termination_by cs.length

/-- Every payload consists of fields. -/
theorem pieces?_eq (payload : List Char) : pieces? payload = some (cutAtCommas false payload) := by
  rw [pieces?, readSeparated?_field]

theorem fields_eq (payload : List Char) :
    fields payload =
      (Text.Fragment.locate 0 (cutAtCommas false payload)).map Text.Fragment.trim := by
  rw [fields, pieces?_eq, Option.getD_some]

/-! ## Cutting a list of pieces -/

theorem cutAtCommas_piece {cs : List Char} (h : IsPiece cs) : cutAtCommas false cs = [cs] := by
  have hcut := h []
  rw [List.append_nil] at hcut
  rw [hcut, cutAtCommas, List.modifyHead_cons, List.append_nil]

theorem cutAtCommas_piece_comma {cs : List Char} (h : IsPiece cs) (rest : List Char) :
    cutAtCommas false (cs ++ ',' :: rest) = cs :: cutAtCommas false rest := by
  rw [h, cutAtCommas, if_pos (by decide), List.modifyHead_cons, List.append_nil]

theorem cutAtCommas_intercalate {pieces : List (List Char)} (hne : pieces ≠ [])
    (h : ∀ p ∈ pieces, IsPiece p) : cutAtCommas false ([','].intercalate pieces) = pieces := by
  induction pieces with
  | nil => exact absurd rfl hne
  | cons p ps ih =>
      have hp := h p List.mem_cons_self
      cases ps with
      | nil => rw [List.intercalate_singleton, cutAtCommas_piece hp]
      | cons q qs =>
          rw [List.intercalate_cons_cons, List.append_assoc, List.singleton_append,
            cutAtCommas_piece_comma hp, ih (by simp) fun r hr => h r (List.mem_cons_of_mem p hr)]

/-- The blank after each comma can be counted to the field that follows. -/
theorem space_intercalate {pieces : List (List Char)} (hne : pieces ≠ []) :
    ' ' :: [',', ' '].intercalate pieces = [','].intercalate (pieces.map (' ' :: ·)) := by
  induction pieces with
  | nil => exact absurd rfl hne
  | cons p ps ih =>
      cases ps with
      | nil => rfl
      | cons q qs =>
          have hrest := ih (by simp)
          rw [List.map_cons] at hrest
          rw [List.intercalate_cons_cons, List.map_cons, List.map_cons,
            List.intercalate_cons_cons, ← hrest]
          simp

theorem map_text_fields (payload : List Char) :
    (fields payload).map (·.text) = (cutAtCommas false payload).map Text.trim := by
  rw [fields_eq, List.map_map]
  conv => rhs; rw [← Text.Fragment.map_text_locate 0 (cutAtCommas false payload)]
  rw [List.map_map]
  rfl

/-- A written list of fields is cut into these fields. -/
theorem map_text_fields_intercalate {pieces : List (List Char)} (hne : pieces ≠ [])
    (h : ∀ p ∈ pieces, IsPiece p ∧ Text.trim p = p) :
    (fields (' ' :: [',', ' '].intercalate pieces)).map (·.text) = pieces := by
  have hspace : ∀ p ∈ pieces.map (' ' :: ·), IsPiece p := by
    intro p hp
    obtain ⟨q, hq, rfl⟩ := List.mem_map.1 hp
    have hblank : IsPiece [' '] := isPiece_of_plain (by decide) (by decide)
    exact hblank.append (h q hq).1
  rw [map_text_fields, space_intercalate hne, cutAtCommas_intercalate (by simpa using hne) hspace,
    List.map_map]
  conv => rhs; rw [← List.map_id pieces]
  apply List.map_congr_left
  intro p hp
  change Text.trim (' ' :: p) = p
  rw [Text.trim_cons_of_isBlank (by decide), (h p hp).2]

/-! ## Joined texts -/

theorem mem_intercalate {sep : List Char} {pieces : List (List Char)} {c : Char}
    (h : c ∈ sep.intercalate pieces) : c ∈ sep ∨ ∃ p ∈ pieces, c ∈ p := by
  induction pieces with
  | nil => exact absurd h (by simp)
  | cons p ps ih =>
      cases ps with
      | nil =>
          rw [List.intercalate_singleton] at h
          exact Or.inr ⟨p, List.mem_cons_self, h⟩
      | cons q qs =>
          rw [List.intercalate_cons_cons, List.mem_append, List.mem_append] at h
          rcases h with (h | h) | h
          · exact Or.inr ⟨p, List.mem_cons_self, h⟩
          · exact Or.inl h
          · rcases ih h with hsep | ⟨r, hr, hmem⟩
            · exact Or.inl hsep
            · exact Or.inr ⟨r, List.mem_cons_of_mem p hr, hmem⟩

theorem getLast?_intercalate_concat {sep : List Char} (pieces : List (List Char))
    {last : List Char} (h : last ≠ []) :
    (sep.intercalate (pieces ++ [last])).getLast? = last.getLast? := by
  induction pieces with
  | nil => rw [List.nil_append, List.intercalate_singleton]
  | cons p ps ih =>
      rw [List.cons_append, List.intercalate_cons_of_ne_nil (by simp), List.getLast?_append, ih,
        List.getLast?_eq_some_getLast h, Option.some_or]

/-! ## Quotes -/

theorem unquote_quoted (cs : List Char) : unquote ('"' :: (cs ++ ['"'])) = cs := by
  have hfront : dropQuote ('"' :: (cs ++ ['"'])) = cs ++ ['"'] := rfl
  rw [unquote, hfront, List.reverse_append]
  change cs.reverse.reverse = cs
  exact List.reverse_reverse cs

theorem trim_quoted (cs : List Char) :
    Text.trim ('"' :: (cs ++ ['"'])) = '"' :: (cs ++ ['"']) := by
  rw [Text.trim_eq_self_iff]
  constructor
  · intro c hc
    rw [← Option.some.inj hc]
    decide
  · intro c hc
    rw [← List.cons_append, List.getLast?_concat] at hc
    rw [← Option.some.inj hc]
    decide

end EventModel.Document
