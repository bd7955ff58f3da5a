import EventModel.Proofs.Text.Numerals

/-!
# The written forms of integers

An integer other than zero may be written with a sign or, if it is positive, without one.  What is
read as a row or column is a text of such a form, whose value is within 32 bits, and each of these
texts is read as its value (`signed?_eq_some_iff`).
-/

namespace EventModel.Text

/-- The ways to write an integer: `0` alone, and any other number as digits of which the first is
not `0`, behind a sign that may be left out if it is a plus. -/
inductive WritesInteger : List Char → Int → Prop
  | zero : WritesInteger ['0'] 0
  | bare {d : Char} {ds : List Char} (first : d.isDigit = true ∧ d ≠ '0')
      (others : ∀ c ∈ ds, c.isDigit = true) :
      WritesInteger (d :: ds) (Nat.ofDigitChars 10 (d :: ds) 0)
  | plus {d : Char} {ds : List Char} (first : d.isDigit = true ∧ d ≠ '0')
      (others : ∀ c ∈ ds, c.isDigit = true) :
      WritesInteger ('+' :: d :: ds) (Nat.ofDigitChars 10 (d :: ds) 0)
  | minus {d : Char} {ds : List Char} (first : d.isDigit = true ∧ d ≠ '0')
      (others : ∀ c ∈ ds, c.isDigit = true) :
      WritesInteger ('-' :: d :: ds) (-(Nat.ofDigitChars 10 (d :: ds) 0 : Int))

theorem integer?_of_writesInteger {cs : List Char} {n : Int} (h : WritesInteger cs n) :
    integer? cs = some n := by
  cases h with
  | zero => rfl
  | @bare d ds first others =>
      have hplus : d ≠ '+' := by
        rintro rfl
        exact absurd first.1 (by decide)
      have hminus : d ≠ '-' := by
        rintro rfl
        exact absurd first.1 (by decide)
      have hzero : d :: ds ≠ ['0'] := fun heq => first.2 (List.cons.inj heq).1
      rw [integer?, natural?, if_neg hzero, positive?_cons first others]
      · rfl
      · intro cs hcs
        exact hplus (List.cons.inj hcs).1
      · intro cs hcs
        exact hminus (List.cons.inj hcs).1
  | plus first others =>
      rw [integer?, positive?_cons first others]
      rfl
  | minus first others =>
      rw [integer?, positive?_cons first others]
      rfl

theorem writesInteger_of_integer? {cs : List Char} {n : Int} (h : integer? cs = some n) :
    WritesInteger cs n := by
  unfold integer? at h
  split at h
  · obtain ⟨m, hm, rfl⟩ := Option.map_eq_some_iff.1 h
    obtain ⟨d, ds, rfl, first, others, rfl⟩ := exists_of_positive? hm
    exact .plus first others
  · obtain ⟨_, hcast, rfl⟩ := Option.map_eq_some_iff.1 h
    obtain ⟨m, hm, heq⟩ := Option.bind_eq_some_iff.1 hcast
    obtain rfl := Option.some.inj heq
    obtain ⟨d, ds, rfl, first, others, rfl⟩ := exists_of_positive? hm
    exact .minus first others
  · obtain ⟨m, hm, rfl⟩ := Option.map_eq_some_iff.1 h
    rw [natural?] at hm
    split at hm
    · rename_i hzero
      rw [hzero, ← Option.some.inj hm]
      exact .zero
    · obtain ⟨d, ds, rfl, first, others, rfl⟩ := exists_of_positive? hm
      exact .bare first others

theorem integer?_eq_some_iff {cs : List Char} {n : Int} :
    integer? cs = some n ↔ WritesInteger cs n :=
  ⟨writesInteger_of_integer?, integer?_of_writesInteger⟩

theorem WritesInteger.unique {cs : List Char} {m n : Int} (hm : WritesInteger cs m)
    (hn : WritesInteger cs n) : m = n :=
  Option.some.inj ((integer?_of_writesInteger hm).symm.trans (integer?_of_writesInteger hn))

/-- A row or column is read from the ways to write it, if it is within 32 bits. -/
theorem signed?_eq_some_iff {cs : List Char} {n : Int32} :
    signed? cs = some n ↔ WritesInteger (trim cs) n.toInt := by
  rw [signed?, Option.bind_eq_some_iff, ← integer?_eq_some_iff]
  constructor
  · rintro ⟨m, hm, hn⟩
    split at hn
    · rename_i hrange
      rw [← Option.some.inj hn, Int32.toInt_ofInt_of_le hrange.1 (Int.lt_add_one_of_le hrange.2)]
      exact hm
    · exact absurd hn (by simp)
  · intro h
    refine ⟨n.toInt, h, ?_⟩
    rw [if_pos ⟨Int32.minValue_le_toInt n, Int32.toInt_le n⟩, Int32.ofInt_toInt]

theorem isDigit_or_sign_of_writesInteger {cs : List Char} {n : Int} (h : WritesInteger cs n)
    {c : Char} (hc : c ∈ cs) : c.isDigit = true ∨ c = '+' ∨ c = '-' := by
  cases h with
  | zero =>
      rw [List.mem_singleton.1 hc]
      exact Or.inl (by decide)
  | bare first others => grind
  | plus first others => grind
  | minus first others => grind

end EventModel.Text
