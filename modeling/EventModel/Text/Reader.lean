/-!
# Readers

A reader takes characters from the front of a text, or refuses the text.  Readers are put together
from smaller ones: one after another, one or else another, one again and again.  A reader that is
repeated has to take something at every turn, or there would be no end to it; so a turn that takes
nothing is refused.
-/

namespace EventModel.Text

/-- A stretch of characters of some kind ends where a character of another kind comes. -/
theorem span_append {p : Char → Bool} {as left : List Char} (has : ∀ c ∈ as, p c = true)
    (hleft : ∀ c, left.head? = some c → p c = false) :
    (as ++ left).takeWhile p = as ∧ (as ++ left).dropWhile p = left := by
  have hstop : left.takeWhile p = [] ∧ left.dropWhile p = left := by
    cases left with
    | nil => exact ⟨rfl, rfl⟩
    | cons c left => simp [hleft c rfl]
  rw [List.takeWhile_append_of_pos has, List.dropWhile_append_of_pos has, hstop.1, hstop.2,
    List.append_nil]
  exact ⟨rfl, rfl⟩

/-- Reads from the front of a text: what is taken, and what is left. -/
structure Reader where
  read? : List Char → Option (List Char × List Char)
  taken_append_left : ∀ {cs taken left}, read? cs = some (taken, left) → taken ++ left = cs

namespace Reader

/-- Takes one character. -/
def char (c : Char) : Reader where
  read?
    | [] => none
    | d :: cs => if d = c then some ([d], cs) else none
  taken_append_left {cs taken left} h := by
    cases cs with
    | nil => exact absurd h (by simp)
    | cons d cs =>
        dsimp only at h
        split at h
        · obtain ⟨rfl, rfl⟩ := Prod.mk.inj (Option.some.inj h)
          rfl
        · exact absurd h (by simp)

theorem read?_char_eq_some_iff {c : Char} {cs taken left : List Char} :
    (char c).read? cs = some (taken, left) ↔ taken = [c] ∧ cs = c :: left := by
  cases cs with
  | nil => simp [char]
  | cons d cs =>
      by_cases hd : d = c
      · simp [char, hd, eq_comm]
      · simp [char, hd]

/-- Takes one character of some kind. -/
def one (accepts : Char → Bool) : Reader where
  read?
    | [] => none
    | d :: cs => if accepts d then some ([d], cs) else none
  taken_append_left {cs taken left} h := by
    cases cs with
    | nil => exact absurd h (by simp)
    | cons d cs =>
        dsimp only at h
        split at h
        · obtain ⟨rfl, rfl⟩ := Prod.mk.inj (Option.some.inj h)
          rfl
        · exact absurd h (by simp)

theorem read?_one_cons {accepts : Char → Bool} {d : Char} (h : accepts d = true)
    (cs : List Char) : (one accepts).read? (d :: cs) = some ([d], cs) :=
  if_pos h

/-- Takes a word. -/
def word (w : List Char) : Reader where
  read? cs := if w.isPrefixOf cs then some (w, cs.drop w.length) else none
  taken_append_left h := by
    split at h
    · rename_i hprefix
      obtain ⟨rfl, rfl⟩ := Prod.mk.inj (Option.some.inj h)
      exact List.prefix_iff_eq_append.1 (List.isPrefixOf_iff_prefix.1 hprefix)
    · exact absurd h (by simp)

theorem read?_word_append (w left : List Char) :
    (word w).read? (w ++ left) = some (w, left) := by
  simp [word]

theorem taken_of_read?_word {w cs taken left : List Char}
    (h : (word w).read? cs = some (taken, left)) : taken = w := by
  simp only [word] at h
  split at h
  · exact (Prod.mk.inj (Option.some.inj h)).1.symm
  · exact absurd h (by simp)

/-- Takes everything in front of the first character of some kind. -/
def takeTill (stops : Char → Bool) : Reader where
  read? cs := some (cs.takeWhile (!stops ·), cs.dropWhile (!stops ·))
  taken_append_left h := by
    obtain ⟨rfl, rfl⟩ := Prod.mk.inj (Option.some.inj h)
    exact List.takeWhile_append_dropWhile

theorem stops_of_mem_taken {stops : Char → Bool} {cs taken left : List Char}
    (h : (takeTill stops).read? cs = some (taken, left)) {c : Char} (hc : c ∈ taken) :
    stops c = false := by
  rw [← (Prod.mk.inj (Option.some.inj h)).1] at hc
  simpa using List.all_eq_true.1 List.all_takeWhile c hc

/-- What is taken goes as far as it can, so it is known from what follows it. -/
theorem read?_takeTill_append {stops : Char → Bool} {as left : List Char}
    (has : ∀ c ∈ as, stops c = false) (hleft : ∀ c, left.head? = some c → stops c = true) :
    (takeTill stops).read? (as ++ left) = some (as, left) := by
  obtain ⟨htaken, hrest⟩ := span_append (p := (!stops ·)) (fun c hc => by simp [has c hc])
    fun c hc => by simp [hleft c hc]
  exact congrArg some (Prod.ext htaken hrest)

/-- Refuses to take nothing. -/
def nonempty (r : Reader) : Reader where
  read? cs := (r.read? cs).filter fun reading => !reading.1.isEmpty
  taken_append_left h := r.taken_append_left (Option.filter_eq_some_iff.1 h).1

theorem read?_nonempty_eq_some_iff {r : Reader} {cs taken left : List Char} :
    r.nonempty.read? cs = some (taken, left) ↔ r.read? cs = some (taken, left) ∧ taken ≠ [] := by
  rw [nonempty, Option.filter_eq_some_iff]
  simp

/-- Takes what one reader takes, and then what the other takes of the rest. -/
def andThen (r s : Reader) : Reader where
  read? cs :=
    (r.read? cs).bind fun first =>
      (s.read? first.2).map fun second => (first.1 ++ second.1, second.2)
  taken_append_left h := by
    obtain ⟨first, hfirst, hrest⟩ := Option.bind_eq_some_iff.1 h
    obtain ⟨second, hsecond, heq⟩ := Option.map_eq_some_iff.1 hrest
    obtain ⟨rfl, rfl⟩ := Prod.mk.inj heq
    rw [List.append_assoc, s.taken_append_left hsecond, r.taken_append_left hfirst]

theorem read?_andThen_eq_some_iff {r s : Reader} {cs taken left : List Char} :
    (r.andThen s).read? cs = some (taken, left) ↔
      ∃ first rest second, r.read? cs = some (first, rest) ∧
        s.read? rest = some (second, left) ∧ first ++ second = taken := by
  simp only [andThen, Option.bind_eq_some_iff, Option.map_eq_some_iff, Prod.exists, Prod.mk.injEq]
  constructor
  · rintro ⟨first, rest, hfirst, second, _, hsecond, htaken, rfl⟩
    exact ⟨first, rest, second, hfirst, hsecond, htaken⟩
  · rintro ⟨first, rest, second, hfirst, hsecond, htaken⟩
    exact ⟨first, rest, hfirst, second, left, hsecond, htaken, rfl⟩

/-- Takes what one reader takes or, where it refuses, what the other takes. -/
def orElse (r s : Reader) : Reader where
  read? cs := (r.read? cs).or (s.read? cs)
  taken_append_left h := by
    rcases Option.or_eq_some_iff.1 h with h | ⟨-, h⟩
    · exact r.taken_append_left h
    · exact s.taken_append_left h

/-- Takes nothing where the reader refuses. -/
def optional (r : Reader) : Reader where
  read? cs := some ((r.read? cs).getD ([], cs))
  taken_append_left {cs taken left} h := by
    cases hread : r.read? cs with
    | none =>
        rw [hread] at h
        obtain ⟨rfl, rfl⟩ := Prod.mk.inj (Option.some.inj h)
        rfl
    | some reading =>
        rw [hread, Option.getD_some, Option.some.injEq] at h
        exact r.taken_append_left (hread.trans (congrArg some h))

theorem read?_optional_eq_some_iff {r : Reader} {cs taken left : List Char} :
    r.optional.read? cs = some (taken, left) ↔
      r.read? cs = some (taken, left) ∨ r.read? cs = none ∧ taken = [] ∧ left = cs := by
  rw [optional, Option.some.injEq]
  cases hread : r.read? cs with
  | none => simp [eq_comm]
  | some reading => simp

theorem length_left_lt {r : Reader} {cs taken left : List Char}
    (h : r.read? cs = some (taken, left)) (hne : taken ≠ []) : left.length < cs.length := by
  rw [← r.taken_append_left h, List.length_append]
  have hpos := List.length_pos_iff.2 hne
  omega

/-- Takes what the reader takes again and again, up to where it refuses. -/
def readRepeatedly? (r : Reader) (cs : List Char) : Option (List Char × List Char) :=
  match h : r.read? cs with
  | none => some ([], cs)
  | some (taken, left) =>
    if hne : taken = [] then none
    else
      have := length_left_lt h hne
      (readRepeatedly? r left).map fun further => (taken ++ further.1, further.2)
termination_by cs.length

theorem readRepeatedly?_of_none {r : Reader} {cs : List Char} (h : r.read? cs = none) :
    readRepeatedly? r cs = some ([], cs) := by
  rw [readRepeatedly?]
  split
  · rfl
  · rename_i hsome
    rw [h] at hsome
    exact absurd hsome (by simp)

theorem readRepeatedly?_of_some {r : Reader} {cs taken left : List Char}
    (h : r.read? cs = some (taken, left)) :
    readRepeatedly? r cs =
      if taken = [] then none
      else (readRepeatedly? r left).map fun further => (taken ++ further.1, further.2) := by
  rw [readRepeatedly?]
  split
  · rename_i hnone
    rw [h] at hnone
    exact absurd hnone (by simp)
  · rename_i hsome
    rw [h] at hsome
    obtain ⟨rfl, rfl⟩ := Prod.mk.inj (Option.some.inj hsome)
    rfl

theorem taken_append_left_of_readRepeatedly? {r : Reader} {cs taken left : List Char}
    (h : readRepeatedly? r cs = some (taken, left)) : taken ++ left = cs := by
  cases hread : r.read? cs with
  | none =>
      rw [readRepeatedly?_of_none hread] at h
      obtain ⟨rfl, rfl⟩ := Prod.mk.inj (Option.some.inj h)
      rfl
  | some reading =>
      obtain ⟨first, rest⟩ := reading
      rw [readRepeatedly?_of_some hread] at h
      split at h
      · exact absurd h (by simp)
      · rename_i hne
        have := length_left_lt hread hne
        obtain ⟨further, hfurther, heq⟩ := Option.map_eq_some_iff.1 h
        obtain ⟨rfl, rfl⟩ := Prod.mk.inj heq
        rw [List.append_assoc, taken_append_left_of_readRepeatedly? hfurther,
          r.taken_append_left hread]
termination_by cs.length

/-- A reader, again and again. -/
def repeated (r : Reader) : Reader where
  read? := readRepeatedly? r
  taken_append_left := taken_append_left_of_readRepeatedly?

/-- Reads pieces with one separator between neighbours: the pieces, and what is left.  There is at
least one piece, and a separator without a piece behind it is left. -/
def readSeparated? (r : Reader) (sep : Char) (cs : List Char) :
    Option (List (List Char) × List Char) :=
  match h : r.read? cs with
  | none => none
  | some (piece, left) =>
    match hleft : left with
    | [] => some ([piece], [])
    | c :: rest =>
      if c = sep then
        have : rest.length < cs.length := by
          rw [← r.taken_append_left h, List.length_append, List.length_cons]
          omega
        match readSeparated? r sep rest with
        | none => some ([piece], c :: rest)
        | some (pieces, last) => some (piece :: pieces, last)
      else some ([piece], c :: rest)
termination_by cs.length

theorem readSeparated?_of_end {r : Reader} {sep : Char} {cs piece : List Char}
    (h : r.read? cs = some (piece, [])) : readSeparated? r sep cs = some ([piece], []) := by
  rw [readSeparated?]
  split
  · rename_i hnone
    rw [h] at hnone
    exact absurd hnone (by simp)
  · rename_i hsome
    rw [h] at hsome
    obtain ⟨rfl, rfl⟩ := Prod.mk.inj (Option.some.inj hsome)
    rfl

theorem readSeparated?_of_sep {r : Reader} {sep : Char} {cs piece rest last : List Char}
    {pieces : List (List Char)} (h : r.read? cs = some (piece, sep :: rest))
    (hrest : readSeparated? r sep rest = some (pieces, last)) :
    readSeparated? r sep cs = some (piece :: pieces, last) := by
  rw [readSeparated?]
  split
  · rename_i hnone
    rw [h] at hnone
    exact absurd hnone (by simp)
  · rename_i hsome
    rw [h] at hsome
    obtain ⟨rfl, rfl⟩ := Prod.mk.inj (Option.some.inj hsome)
    simp only [if_true, hrest]

end Reader

end EventModel.Text
