import EventModel.Proofs.Document.NoteAttachment

/-!
# The entries of a note

A note is cut into parts at its semicolons and line feeds, and a part writes an entry when a colon
stands in it with something in front of it.  What a text has to look like to have some entries is
said here without reading it (`Writes`), and reading finds exactly these entries
(`entries_eq_iff`).  Texts that are joined at a separator are read one by one, so the entries of a
note are those of its lines.
-/

namespace EventModel

open Text (Padded IsGap)

namespace Note

/-! ## Written entries -/

/-- A text without a separator, such as a note is cut into. -/
def IsPart (part : List Char) : Prop := ';' ∉ part ∧ '\n' ∉ part

/-- A key as an entry can have it. -/
structure IsKey (key : String) : Prop where
  ne_empty : key ≠ ""
  trim_eq : Text.trim key.toList = key.toList
  isPart : IsPart key.toList
  colon_notMem : ':' ∉ key.toList

/-- A value as an entry can have it. -/
structure IsValue (value : String) : Prop where
  trim_eq : Text.trim value.toList = value.toList
  isPart : IsPart value.toList

/-- A part that writes an entry, with white space around key and value, or none: a text without a
colon, or one with nothing but white space in front of its first colon. -/
inductive WritesPart : Option (String × String) → List Char → Prop
  | entry {key value : String} {front back : List Char} (hkey : IsKey key) (hvalue : IsValue value)
      (hfront : Padded key.toList front) (hback : Padded value.toList back) :
      WritesPart (some (key, value)) (front ++ ':' :: back)
  | freeText {part : List Char} (hpart : IsPart part) (hcolon : ':' ∉ part) :
      WritesPart none part
  | keyless {gap rest : List Char} (hgap : IsGap gap) (hrest : IsPart rest) :
      WritesPart none (gap ++ ':' :: rest)

/-- A text that writes some entries, in their order, among parts that write none. -/
inductive Writes : List (String × String) → List Char → Prop
  | last {entry : Option (String × String)} {part : List Char} (hpart : WritesPart entry part) :
      Writes entry.toList part
  | cons {entry : Option (String × String)} {part : List Char} {entries : List (String × String)}
      {rest : List Char} (hpart : WritesPart entry part) (sep : Char)
      (hsep : sep = ';' ∨ sep = '\n') (hrest : Writes entries rest) :
      Writes (entry.toList ++ entries) (part ++ sep :: rest)

theorem isSeparator_iff {c : Char} : isSeparator c = true ↔ c = ';' ∨ c = '\n' := by
  rw [isSeparator, Bool.or_eq_true, beq_iff_eq, beq_iff_eq]

theorem isPart_iff {part : List Char} : IsPart part ↔ ∀ c ∈ part, isSeparator c = false := by
  constructor
  · rintro ⟨hsemicolon, hnewline⟩ c hc
    rw [← Bool.not_eq_true, isSeparator_iff]
    rintro (rfl | rfl)
    · exact hsemicolon hc
    · exact hnewline hc
  · intro h
    exact ⟨fun hc => absurd (h _ hc) (by decide), fun hc => absurd (h _ hc) (by decide)⟩

theorem IsPart.append {as bs : List Char} (has : IsPart as) (hbs : IsPart bs) :
    IsPart (as ++ bs) :=
  ⟨List.not_mem_append has.1 hbs.1, List.not_mem_append has.2 hbs.2⟩

theorem IsPart.of_padded {inner outer : List Char} (h : Padded inner outer)
    (hinner : IsPart inner) : IsPart outer :=
  ⟨h.notMem (Or.inl (by decide)) hinner.1, h.notMem (Or.inr rfl) hinner.2⟩

theorem IsPart.of_isInfix {as bs : List Char} (h : as <:+: bs) (hbs : IsPart bs) : IsPart as :=
  ⟨fun hc => hbs.1 (h.subset hc), fun hc => hbs.2 (h.subset hc)⟩

theorem isPart_of_isGap {gap : List Char} (h : IsGap gap) : IsPart gap :=
  ⟨fun hc => absurd (h _ hc).1 (by decide), fun hc => (h _ hc).2 rfl⟩

theorem isPart_colon : IsPart [':'] := by
  constructor <;> decide

/-! ## Parts -/

theorem WritesPart.isPart {entry : Option (String × String)} {part : List Char}
    (h : WritesPart entry part) : IsPart part := by
  cases h with
  | entry hkey hvalue hfront hback =>
      exact (IsPart.of_padded hfront hkey.isPart).append
        (isPart_colon.append (IsPart.of_padded hback hvalue.isPart))
  | freeText hpart _ => exact hpart
  | keyless hgap hrest => exact (isPart_of_isGap hgap).append (isPart_colon.append hrest)

/-- The first colon decides where the key ends. -/
theorem entryOf?_append_colon {front : List Char} (h : ':' ∉ front) (back : List Char) :
    entryOf? (front ++ ':' :: back) =
      if Text.trim front = [] then none
      else some (String.ofList (Text.trim front), String.ofList (Text.trim back)) := by
  have hspan : (front ++ ':' :: back).takeWhile (· != ':') = front ∧
      (front ++ ':' :: back).dropWhile (· != ':') = ':' :: back := by
    refine Text.span_append (fun c hc => ?_) fun c hc => ?_
    · simpa using fun heq : c = ':' => h (heq ▸ hc)
    · rw [← Option.some.inj hc]
      decide
  obtain ⟨htake, hdrop⟩ := hspan
  simp only [htake, hdrop, entryOf?, List.isEmpty_iff]

theorem entryOf?_of_notMem {part : List Char} (h : ':' ∉ part) : entryOf? part = none := by
  have hdrop : part.dropWhile (· != ':') = [] := by
    rw [List.dropWhile_eq_nil_iff]
    intro c hc
    simpa using fun heq : c = ':' => h (heq ▸ hc)
  simp only [hdrop, entryOf?]

theorem entryOf?_of_writesPart {entry : Option (String × String)} {part : List Char}
    (h : WritesPart entry part) : entryOf? part = entry := by
  cases h with
  | @entry key value front back hkey hvalue hfront hback =>
      have hcolon : ':' ∉ front := hfront.notMem (Or.inl (by decide)) hkey.colon_notMem
      have hne : key.toList ≠ [] := fun hnil => hkey.ne_empty (String.toList_eq_nil_iff.1 hnil)
      rw [entryOf?_append_colon hcolon, hfront.trim_eq hkey.trim_eq, hback.trim_eq hvalue.trim_eq,
        if_neg hne, String.ofList_toList, String.ofList_toList]
  | freeText _ hcolon => exact entryOf?_of_notMem hcolon
  | @keyless gap rest hgap hrest =>
      have hcolon : ':' ∉ gap := fun hc => absurd (hgap _ hc).1 (by decide)
      have hpadded : Padded [] gap := ⟨gap, [], hgap, by decide, by simp⟩
      rw [entryOf?_append_colon hcolon, hpadded.trim_eq rfl, if_pos rfl]

theorem isKey_trim {front : List Char} (h : IsPart front) (hcolon : ':' ∉ front)
    (hne : Text.trim front ≠ []) : IsKey (String.ofList (Text.trim front)) where
  ne_empty heq := hne (by rw [← String.toList_ofList (l := Text.trim front), heq]; rfl)
  trim_eq := by rw [String.toList_ofList, Text.trim_trim]
  isPart := by
    rw [String.toList_ofList]
    exact h.of_isInfix (Text.isInfix_trim front)
  colon_notMem := by
    rw [String.toList_ofList]
    exact fun hc => hcolon (Text.mem_of_mem_trim hc)

theorem isValue_trim {back : List Char} (h : IsPart back) :
    IsValue (String.ofList (Text.trim back)) where
  trim_eq := by rw [String.toList_ofList, Text.trim_trim]
  isPart := by
    rw [String.toList_ofList]
    exact h.of_isInfix (Text.isInfix_trim back)

theorem isGap_of_trim_eq_nil {front : List Char} (h : IsPart front)
    (hnil : Text.trim front = []) : IsGap front := by
  have hpadded : Padded (Text.trim front) front := Text.padded_trim h.2
  rw [hnil] at hpadded
  obtain ⟨lead, tail, hlead, htail, rfl⟩ := hpadded
  intro c hc
  rw [List.append_nil, List.mem_append] at hc
  exact hc.elim (hlead c) (htail c)

theorem writesPart_of_isPart {part : List Char} (h : IsPart part) :
    WritesPart (entryOf? part) part := by
  by_cases hcolon : ':' ∈ part
  · obtain ⟨front, back, rfl, hfirst⟩ := List.eq_append_cons_of_mem hcolon
    have hfront : IsPart front := h.of_isInfix (List.prefix_append _ _).isInfix
    have hback : IsPart back := h.of_isInfix ⟨front ++ [':'], [], by simp⟩
    rw [entryOf?_append_colon hfirst]
    split
    · rename_i hnil
      exact .keyless (isGap_of_trim_eq_nil hfront hnil) hback
    · rename_i hne
      refine .entry (isKey_trim hfront hfirst hne) (isValue_trim hback) ?_ ?_
      · rw [String.toList_ofList]
        exact Text.padded_trim hfront.2
      · rw [String.toList_ofList]
        exact Text.padded_trim hback.2
  · rw [entryOf?_of_notMem hcolon]
    exact .freeText h hcolon

theorem WritesPart.constraints {entry : Option (String × String)} {part : List Char}
    (h : WritesPart entry part) : ∀ e ∈ entry, IsKey e.1 ∧ IsValue e.2 := by
  cases h with
  | entry hkey hvalue _ _ =>
      intro e he
      rw [← Option.some.inj he]
      exact ⟨hkey, hvalue⟩
  | freeText _ _ => exact fun e he => absurd he (by simp)
  | keyless _ _ => exact fun e he => absurd he (by simp)

/-! ## Texts -/

/-- The entries of a text of characters. -/
def entriesIn (text : List Char) : List (String × String) :=
  (text.splitOnP isSeparator).filterMap entryOf?

theorem entries_eq_entriesIn (note : Note) : note.entries = entriesIn note.text.toList := rfl

theorem entriesIn_of_isPart {part : List Char} (h : IsPart part) :
    entriesIn part = (entryOf? part).toList := by
  rw [entriesIn, List.splitOnP_eq_singleton (isPart_iff.1 h), List.filterMap_cons]
  cases entryOf? part <;> rfl

/-- A separator keeps apart what is on its two sides. -/
theorem entriesIn_append_cons {sep : Char} (hsep : sep = ';' ∨ sep = '\n') (as bs : List Char) :
    entriesIn (as ++ sep :: bs) = entriesIn as ++ entriesIn bs := by
  rw [entriesIn, List.splitOnP_append_cons as bs (isSeparator_iff.2 hsep), List.filterMap_append]
  rfl

theorem entriesIn_of_writes {entries : List (String × String)} {text : List Char}
    (h : Writes entries text) : entriesIn text = entries := by
  induction h with
  | last hpart => rw [entriesIn_of_isPart hpart.isPart, entryOf?_of_writesPart hpart]
  | cons hpart sep hsep _ ih =>
      rw [entriesIn_append_cons hsep, ih, entriesIn_of_isPart hpart.isPart,
        entryOf?_of_writesPart hpart]

theorem writes_entriesIn (text : List Char) : Writes (entriesIn text) text := by
  -- `part` is what stands in front of the rest, up to the separator before it
  suffices h : ∀ part, IsPart part → Writes (entriesIn (part ++ text)) (part ++ text) from
    h [] (by constructor <;> exact List.not_mem_nil)
  induction text with
  | nil =>
      intro part hpart
      rw [List.append_nil, entriesIn_of_isPart hpart]
      exact .last (writesPart_of_isPart hpart)
  | cons c text ih =>
      intro part hpart
      by_cases hsep : c = ';' ∨ c = '\n'
      · have hrest := ih [] (by constructor <;> exact List.not_mem_nil)
        rw [entriesIn_append_cons hsep, entriesIn_of_isPart hpart]
        exact .cons (writesPart_of_isPart hpart) c hsep hrest
      · have hc : IsPart [c] := by
          rw [isPart_iff]
          intro d hd
          rw [List.mem_singleton.1 hd, ← Bool.not_eq_true, isSeparator_iff]
          exact hsep
        have hrest := ih (part ++ [c]) (hpart.append hc)
        rw [List.append_assoc, List.singleton_append] at hrest
        exact hrest

theorem entries_eq_iff {note : Note} {entries : List (String × String)} :
    note.entries = entries ↔ Writes entries note.text.toList := by
  rw [entries_eq_entriesIn]
  constructor
  · rintro rfl
    exact writes_entriesIn _
  · exact entriesIn_of_writes

theorem Writes.constraints {entries : List (String × String)} {text : List Char}
    (h : Writes entries text) : ∀ e ∈ entries, IsKey e.1 ∧ IsValue e.2 := by
  induction h with
  | last hpart =>
      intro e he
      exact hpart.constraints e (Option.mem_toList.1 he)
  | cons hpart _ _ _ ih =>
      intro e he
      rcases List.mem_append.1 he with he | he
      · exact hpart.constraints e (Option.mem_toList.1 he)
      · exact ih e he

/-- Entries with keys and values of the right form can be written. -/
theorem exists_writes {entries : List (String × String)}
    (h : ∀ e ∈ entries, IsKey e.1 ∧ IsValue e.2) : ∃ text, Writes entries text := by
  induction entries with
  | nil =>
      have hempty : WritesPart none [] :=
        .freeText (by constructor <;> exact List.not_mem_nil) List.not_mem_nil
      exact ⟨[], .last hempty⟩
  | cons e entries ih =>
      obtain ⟨hkey, hvalue⟩ := h e List.mem_cons_self
      obtain ⟨rest, hrest⟩ := ih fun e' he' => h e' (List.mem_cons_of_mem e he')
      exact ⟨_, .cons (.entry hkey hvalue (.refl _) (.refl _)) ';' (Or.inl rfl) hrest⟩

/-! ## Lines -/

theorem entriesIn_intercalate (lines : List (List Char)) :
    entriesIn (['\n'].intercalate lines) = lines.flatMap entriesIn := by
  induction lines with
  | nil => rfl
  | cons line lines ih =>
      cases lines with
      | nil => rw [List.intercalate_singleton, List.flatMap_singleton]
      | cons next lines =>
          rw [List.intercalate_cons_cons, List.append_assoc, List.singleton_append,
            entriesIn_append_cons (Or.inr rfl), ih, List.flatMap_cons (x := line)]

theorem entries_of_ofLines? {lines : List String} {note : Note} (h : ofLines? lines = some note) :
    note.entries = lines.flatMap fun line => (⟨line⟩ : Note).entries := by
  have htext : note.text = "\n".intercalate lines := by
    rw [ofLines?] at h
    split at h
    · exact absurd h (by simp)
    · rw [← Option.some.inj h]
  have hlines : "\n".toList = ['\n'] := rfl
  rw [entries_eq_entriesIn, htext, String.toList_intercalate, hlines, entriesIn_intercalate,
    List.flatMap_map]
  rfl

/-- **A note has the entries that it writes.**  Key, colon and value, with any white space around
key and value that ends no line, write an entry; parts without a colon or without a key write none;
parts stand apart by semicolons or line feeds.  A text has some entries just when it writes them in
this way, and the entries that texts have are those whose keys and values have the right form.
Entries of joined texts follow upon one another, so the note of an element has the entries of the
lines of its block. -/
theorem entries_as_written :
    (∀ (note : Note) (entries : List (String × String)),
        note.entries = entries ↔ Writes entries note.text.toList) ∧
      (∀ entries : List (String × String),
        (∃ note : Note, note.entries = entries) ↔ ∀ e ∈ entries, IsKey e.1 ∧ IsValue e.2) ∧
      (∀ sep, sep = ";" ∨ sep = "\n" → ∀ text text' : String,
        (⟨text ++ sep ++ text'⟩ : Note).entries =
          (⟨text⟩ : Note).entries ++ (⟨text'⟩ : Note).entries) ∧
      ∀ source, ∀ e ∈ (Document.build source).diagram.elements, ∀ note, e.note = some note →
        ∃ o ∈ Occurrence.list (Statement.scan source),
          o.isText = true ∧ o.owner? = some e.origin ∧
            note.text.toList.splitOn '\n' = o.block.map String.toList ∧
            note.entries = o.block.flatMap fun line => (⟨line⟩ : Note).entries := by
  refine ⟨fun note entries => entries_eq_iff, fun entries => ⟨?_, ?_⟩, ?_, ?_⟩
  · rintro ⟨note, hnote⟩
    exact (entries_eq_iff.1 hnote).constraints
  · intro h
    obtain ⟨text, htext⟩ := exists_writes h
    refine ⟨⟨String.ofList text⟩, entries_eq_iff.2 ?_⟩
    rw [String.toList_ofList]
    exact htext
  · intro sep hsep text text'
    simp only [entries_eq_entriesIn, String.toList_append, List.append_assoc]
    rcases hsep with rfl | rfl
    · exact entriesIn_append_cons (Or.inl rfl) _ _
    · exact entriesIn_append_cons (Or.inr rfl) _ _
  · intro source e he note hnote
    obtain ⟨o, ho, htext, howner, hblock⟩ := Document.exists_block_of_note he hnote
    exact ⟨o, ho, htext, howner, Document.splitOn_note ho hblock, entries_of_ofLines? hblock⟩

example :
    (⟨"price : 3:50 ;; a\u3000:\nfree; :x\nb c:\td"⟩ : Note).entries =
      [("price", "3:50"), ("a", ""), ("b c", "d")] := by
  decide +kernel

end Note

end EventModel
