import EventModel.Text.Blank
import Mathlib.Data.List.DropRight

/-!
# Trimmed texts

Trimming leaves a stretch of the text that has white space at neither end (`isInfix_trim`,
`trim_trim`), and texts that are like this already are left alone (`trim_eq_self_iff`) and found
again when white space is put around them (`Padded.trim_eq`).  Where only spaces and tabs count as
white space, a stretch of them is called spacing (`IsSpacing`).
-/

namespace EventModel.Text

theorem trim_eq_rdropWhile (cs : List Char) :
    trim cs = (cs.dropWhile isBlank).rdropWhile isBlank := rfl

theorem isInfix_trim (cs : List Char) : trim cs <:+: cs := by
  have hsuffix : cs.dropWhile isBlank <:+ cs := List.dropWhile_suffix isBlank
  have hprefix : trim cs <+: cs.dropWhile isBlank := by
    rw [trim_eq_rdropWhile]
    exact List.rdropWhile_prefix isBlank _
  exact hprefix.isInfix.trans hsuffix.isInfix

theorem mem_of_mem_trim {c : Char} {cs : List Char} (h : c ∈ trim cs) : c ∈ cs :=
  (isInfix_trim cs).subset h

theorem trim_cons_of_isBlank {b : Char} (hb : isBlank b = true) (cs : List Char) :
    trim (b :: cs) = trim cs := by
  rw [trim_eq_rdropWhile, List.dropWhile_cons_of_pos hb, ← trim_eq_rdropWhile]

/-- A trimmed text has no white space in front. -/
theorem isBlank_head_trim {cs : List Char} {c : Char} (h : (trim cs).head? = some c) :
    isBlank c = false := by
  obtain ⟨rest, hrest⟩ : ∃ rest, trim cs = c :: rest := by
    cases htrim : trim cs with
    | nil => simp [htrim] at h
    | cons d rest =>
        rw [htrim, List.head?_cons, Option.some.injEq] at h
        exact ⟨rest, by rw [h]⟩
  obtain ⟨tail, htail⟩ : trim cs <+: cs.dropWhile isBlank := by
    rw [trim_eq_rdropWhile]
    exact List.rdropWhile_prefix isBlank _
  rw [hrest, List.cons_append] at htail
  have hne : cs.dropWhile isBlank ≠ [] := by simp [← htail]
  have hhead := List.head_dropWhile_not isBlank hne
  simpa [← htail] using hhead

/-- A trimmed text has no white space at its end. -/
theorem isBlank_getLast_trim {cs : List Char} {c : Char} (h : (trim cs).getLast? = some c) :
    isBlank c = false := by
  rw [trim_eq_rdropWhile] at h
  have hne : (cs.dropWhile isBlank).rdropWhile isBlank ≠ [] := by
    intro hnil
    simp [hnil] at h
  have hlast := List.rdropWhile_last_not isBlank _ hne
  rw [List.getLast?_eq_some_getLast hne, Option.some.injEq] at h
  rw [h] at hlast
  simpa using hlast

/-- Trimming leaves exactly those texts alone that have white space at neither end. -/
theorem trim_eq_self_iff {cs : List Char} :
    trim cs = cs ↔
      (∀ c, cs.head? = some c → isBlank c = false) ∧
        ∀ c, cs.getLast? = some c → isBlank c = false := by
  constructor
  · intro h
    refine ⟨fun c hc => ?_, fun c hc => ?_⟩
    · rw [← h] at hc
      exact isBlank_head_trim hc
    · rw [← h] at hc
      exact isBlank_getLast_trim hc
  · rintro ⟨hhead, hlast⟩
    have hstart : cs.dropWhile isBlank = cs := by
      cases cs with
      | nil => rfl
      | cons c rest =>
          have hc := hhead c rfl
          rw [List.dropWhile_cons_of_neg (by simp [hc])]
    rw [trim_eq_rdropWhile, hstart, List.rdropWhile_eq_self_iff]
    intro hne
    have hc := hlast _ (List.getLast?_eq_some_getLast hne)
    simp [hc]

@[simp] theorem trim_trim (cs : List Char) : trim (trim cs) = trim cs :=
  trim_eq_self_iff.2 ⟨fun _ => isBlank_head_trim, fun _ => isBlank_getLast_trim⟩

theorem trim_of_forall_not_isBlank {cs : List Char} (h : ∀ c ∈ cs, isBlank c = false) :
    trim cs = cs :=
  trim_eq_self_iff.2
    ⟨fun c hc => h c (List.mem_of_head? hc), fun c hc => h c (List.mem_of_getLast? hc)⟩

/-! ## What trimming keeps -/

theorem filter_dropWhile_isBlank (cs : List Char) :
    (cs.dropWhile isBlank).filter (!isBlank ·) = cs.filter (!isBlank ·) := by
  have hblank : (cs.takeWhile isBlank).filter (!isBlank ·) = [] := by
    rw [List.filter_eq_nil_iff]
    intro c hc
    simp [List.mem_takeWhile_imp hc]
  conv => rhs; rw [← List.takeWhile_append_dropWhile (p := isBlank) (l := cs), List.filter_append]
  rw [hblank, List.nil_append]

/-- Apart from white space, nothing is lost. -/
theorem filter_trim (cs : List Char) :
    (trim cs).filter (!isBlank ·) = cs.filter (!isBlank ·) := by
  rw [trim, trimEnd, List.filter_reverse, filter_dropWhile_isBlank, List.filter_reverse,
    List.reverse_reverse, trimStart, filter_dropWhile_isBlank]

theorem count_filter_isBlank {c : Char} (hc : isBlank c = false) (cs : List Char) :
    (cs.filter (!isBlank ·)).count c = cs.count c :=
  List.count_filter (by simp [hc])

theorem count_trim {c : Char} (hc : isBlank c = false) (cs : List Char) :
    (trim cs).count c = cs.count c := by
  rw [← count_filter_isBlank hc, filter_trim, count_filter_isBlank hc]

theorem trimStart_append_cons {c : Char} (hc : isBlank c = false) (as bs : List Char) :
    trimStart (as ++ c :: bs) = trimStart as ++ c :: bs := by
  rw [trimStart, List.dropWhile_append, ← trimStart, List.dropWhile_cons_of_neg (by simp [hc])]
  cases trimStart as <;> rfl

theorem trimEnd_append_cons {c : Char} (hc : isBlank c = false) (as bs : List Char) :
    trimEnd (as ++ c :: bs) = as ++ trimEnd (c :: bs) := by
  have hne : ((c :: bs).reverse.dropWhile isBlank).isEmpty = false := by
    rw [List.isEmpty_eq_false_iff, ne_eq, List.dropWhile_eq_nil_iff]
    intro hall
    have hblank := hall c (by simp)
    rw [hc] at hblank
    exact absurd hblank (by decide)
  rw [trimEnd, List.reverse_append, List.dropWhile_append, hne, if_neg (by decide),
    List.reverse_append, List.reverse_reverse, trimEnd]

/-- A character in the middle that is not blank keeps the two ends apart. -/
theorem trim_append_cons {c : Char} (hc : isBlank c = false) (as bs : List Char) :
    trim (as ++ c :: bs) = trimStart as ++ trimEnd (c :: bs) := by
  rw [trim, trimStart_append_cons hc, trimEnd_append_cons hc]

theorem trimEnd_eq_rdropWhile (cs : List Char) : trimEnd cs = cs.rdropWhile isBlank := rfl

theorem trimEnd_cons {c : Char} (hc : isBlank c = false) (cs : List Char) :
    trimEnd (c :: cs) = c :: trimEnd cs := by
  rw [trimEnd_eq_rdropWhile, trimEnd_eq_rdropWhile, List.rdropWhile, List.reverse_cons,
    List.dropWhile_append]
  split
  · rename_i hempty
    rw [List.isEmpty_iff] at hempty
    simp [List.rdropWhile, hempty, hc]
  · simp [List.rdropWhile]

/-- What comes in front of a trimmed text does not matter at its end. -/
theorem trimEnd_append_of_trim_eq {as bs : List Char} (hne : bs ≠ []) (h : trim bs = bs) :
    trimEnd (as ++ bs) = as ++ bs := by
  rw [trimEnd_eq_rdropWhile, List.rdropWhile_eq_self_iff]
  intro hne'
  rw [List.getLast_append_of_right_ne_nil _ _ hne]
  have hlast := (trim_eq_self_iff.1 h).2 _ (List.getLast?_eq_some_getLast hne)
  simp [hlast]

/-! ## White space around a text -/

/-- White space that does not end a line. -/
def IsGap (cs : List Char) : Prop := ∀ c ∈ cs, isBlank c = true ∧ c ≠ '\n'

instance (cs : List Char) : Decidable (IsGap cs) :=
  List.decidableBAll (fun c => isBlank c = true ∧ c ≠ '\n') cs

/-- The second text is the first with any white space around it, all on one line. -/
def Padded (inner outer : List Char) : Prop :=
  ∃ front back, IsGap front ∧ IsGap back ∧ outer = front ++ inner ++ back

theorem Padded.refl (cs : List Char) : Padded cs cs :=
  ⟨[], [], by decide, by decide, by rw [List.nil_append, List.append_nil]⟩

theorem trimStart_append_of_blank {front : List Char} (h : ∀ c ∈ front, isBlank c = true)
    (cs : List Char) : trimStart (front ++ cs) = trimStart cs :=
  List.dropWhile_append_of_pos h

theorem trimEnd_append_of_blank {back : List Char} (h : ∀ c ∈ back, isBlank c = true)
    (cs : List Char) : trimEnd (cs ++ back) = trimEnd cs := by
  rw [trimEnd, List.reverse_append, List.dropWhile_append_of_pos, ← trimEnd]
  exact fun c hc => h c (List.mem_reverse.1 hc)

/-- A trimmed text is found again between white space. -/
theorem Padded.trim_eq {inner outer : List Char} (h : Padded inner outer)
    (hinner : trim inner = inner) : trim outer = inner := by
  obtain ⟨front, back, hfront, hback, rfl⟩ := h
  rw [trim, List.append_assoc, trimStart_append_of_blank fun c hc => (hfront c hc).1]
  cases inner with
  | nil =>
      have hnil : trimStart back = [] := List.dropWhile_eq_nil_iff.2 fun c hc => (hback c hc).1
      rw [List.nil_append, hnil, trimEnd_nil]
  | cons c cs =>
      have hc : isBlank c = false := (trim_eq_self_iff.1 hinner).1 c rfl
      rw [trimStart, List.cons_append, List.dropWhile_cons_of_neg (by simp [hc]),
        ← List.cons_append, trimEnd_append_of_blank fun c hc => (hback c hc).1]
      rw [trim, trimStart, List.dropWhile_cons_of_neg (by simp [hc])] at hinner
      exact hinner

theorem Padded.trimEnd {inner outer : List Char} (h : Padded inner outer) (hne : inner ≠ [])
    (hinner : trim inner = inner) : Padded inner (trimEnd outer) := by
  obtain ⟨front, back, hfront, hback, rfl⟩ := h
  refine ⟨front, [], hfront, fun c hc => absurd hc List.not_mem_nil, ?_⟩
  rw [trimEnd_append_of_blank fun c hc => (hback c hc).1, trimEnd_append_of_trim_eq hne hinner,
    List.append_nil]

/-- A line is its trimmed text with white space around it. -/
theorem padded_trim {cs : List Char} (h : '\n' ∉ cs) : Padded (trim cs) cs := by
  have hgap : ∀ gap, (∀ c ∈ gap, isBlank c = true) → gap <:+: cs → IsGap gap := by
    intro gap hblank hpart c hc
    refine ⟨hblank c hc, ?_⟩
    rintro rfl
    exact h (hpart.subset hc)
  have hstart : cs.takeWhile isBlank ++ cs.dropWhile isBlank = cs :=
    List.takeWhile_append_dropWhile
  have hend : trim cs ++ (cs.dropWhile isBlank).rtakeWhile isBlank = cs.dropWhile isBlank := by
    rw [trim_eq_rdropWhile, List.rdropWhile_append_rtakeWhile]
  refine ⟨cs.takeWhile isBlank, (cs.dropWhile isBlank).rtakeWhile isBlank, ?_, ?_, ?_⟩
  · exact hgap _ (fun c hc => List.mem_takeWhile_imp hc) (List.takeWhile_prefix _).isInfix
  · refine hgap _ (fun c hc => List.mem_rtakeWhile_imp hc) ?_
    exact (List.rtakeWhile_suffix _ _).isInfix.trans (List.dropWhile_suffix _).isInfix
  · rw [List.append_assoc, hend, hstart]

theorem Padded.notMem {inner outer : List Char} (h : Padded inner outer) {c : Char}
    (hc : isBlank c = false ∨ c = '\n') (hinner : c ∉ inner) : c ∉ outer := by
  obtain ⟨front, back, hfront, hback, rfl⟩ := h
  have hgap : ∀ cs : List Char, IsGap cs → c ∉ cs := by
    intro cs hcs hmem
    obtain ⟨hblank, hne⟩ := hcs c hmem
    rcases hc with hc | rfl
    · rw [hc] at hblank
      exact absurd hblank (by decide)
    · exact hne rfl
  simp only [List.mem_append, not_or]
  exact ⟨⟨hgap front hfront, hinner⟩, hgap back hback⟩

/-! ## Spacing -/

/-- Spaces and tabs, and nothing else. -/
def IsSpacing (cs : List Char) : Prop := ∀ c ∈ cs, c = ' ' ∨ c = '\t'

instance (cs : List Char) : Decidable (IsSpacing cs) :=
  List.decidableBAll (fun c => c = ' ' ∨ c = '\t') cs

theorem isSpaceOrTab_iff {c : Char} : isSpaceOrTab c = true ↔ c = ' ' ∨ c = '\t' := by
  rw [isSpaceOrTab, Bool.or_eq_true, beq_iff_eq, beq_iff_eq]

theorem isSpacing_iff {cs : List Char} : IsSpacing cs ↔ ∀ c ∈ cs, isSpaceOrTab c = true := by
  simp only [IsSpacing, isSpaceOrTab_iff]

end EventModel.Text
