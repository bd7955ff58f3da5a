import EventModel.Text.Decimal
import EventModel.Proofs.Text.Trimming

/-!
# Written integers

Integers of 32 bits are read back from their decimal form, whatever their value
(`natural32?_toString`, `signed?_toString`).  That form is made of digits and a sign, so no
white space, quote or separator occurs in it (`isNumeralChar_of_mem_toString`).  Numbers without a
sign are read from this form only, also from the front of a longer text (`natural32?_eq_some_iff`,
`eq_append_of_readNatural32?`, `readNatural32?_append`).
-/

namespace EventModel.Text

/-! ## Digits -/

theorem isLeadingDigit_digitChar {n : Nat} (hpos : 0 < n) (hlt : n < 10) :
    isLeadingDigit n.digitChar = true := by
  rw [isLeadingDigit, Nat.isDigit_digitChar, decide_eq_true hlt, Bool.true_and, bne_iff_ne]
  intro hzero
  rw [Nat.digitChar_eq_zero] at hzero
  omega

/-- The decimal form of a positive number has no zero in front. -/
theorem isLeadingDigit_head_toDigits {n : Nat} (hpos : 0 < n) {d : Char}
    (hd : (Nat.toDigits 10 n).head? = some d) : isLeadingDigit d = true := by
  induction n using Nat.strongRecOn with
  | ind n ih =>
      by_cases hlt : n < 10
      · rw [Nat.toDigits_of_lt_base hlt] at hd
        rw [← Option.some.inj hd]
        exact isLeadingDigit_digitChar hpos hlt
      · rw [Nat.toDigits_of_base_le (by omega) (by omega),
          List.head?_append_of_ne_nil _ Nat.toDigits_ne_nil] at hd
        exact ih (n / 10) (by omega) (by omega) hd

theorem all_isDigit_toDigits (n : Nat) : (Nat.toDigits 10 n).all Char.isDigit = true := by
  rw [List.all_eq_true]
  intro c hc
  exact Nat.isDigit_of_mem_toDigits (by omega) (by omega) hc

theorem positive?_toDigits {n : Nat} (hpos : 0 < n) :
    positive? (Nat.toDigits 10 n) = some n := by
  have hall := all_isDigit_toDigits n
  have hvalue : Nat.ofDigitChars 10 (Nat.toDigits 10 n) 0 = n := Nat.ofDigitChars_ten_toDigits
  cases hdigits : Nat.toDigits 10 n with
  | nil => exact absurd hdigits Nat.toDigits_ne_nil
  | cons d ds =>
      have hd : isLeadingDigit d = true :=
        isLeadingDigit_head_toDigits hpos (by rw [hdigits, List.head?_cons])
      rw [hdigits, List.all_cons, Bool.and_eq_true] at hall
      rw [hdigits] at hvalue
      rw [positive?, hd, hall.2, Bool.and_self, if_pos rfl, hvalue]

theorem natural?_toDigits (n : Nat) : natural? (Nat.toDigits 10 n) = some n := by
  rw [natural?]
  by_cases hpos : 0 < n
  · have hne : Nat.toDigits 10 n ≠ ['0'] := by
      intro hzero
      have hd : isLeadingDigit '0' = true :=
        isLeadingDigit_head_toDigits hpos (by rw [hzero, List.head?_cons])
      exact absurd hd (by decide)
    rw [if_neg hne, positive?_toDigits hpos]
  · have hzero : n = 0 := by omega
    rw [hzero, Nat.toDigits_zero, if_pos rfl]

/-! ## The characters of a numeral -/

/-- The characters that occur in a written integer. -/
def isNumeralChar (c : Char) : Bool := c.isDigit || c == '-'

theorem isBlank_of_isNumeralChar {c : Char} (h : isNumeralChar c = true) :
    isBlank c = false := by
  rw [Bool.eq_false_iff]
  intro hblank
  have hnone : (blanks.all fun b => !isNumeralChar b) = true := by decide
  have hc := List.all_eq_true.1 hnone c ((isBlank_iff_mem c).1 hblank)
  rw [h] at hc
  exact absurd hc (by simp)

theorem isNumeralChar_of_mem_toDigits {n : Nat} {c : Char} (h : c ∈ Nat.toDigits 10 n) :
    isNumeralChar c = true := by
  rw [isNumeralChar, Nat.isDigit_of_mem_toDigits (by omega) (by omega) h, Bool.true_or]

/-- The characters of an integer, with a sign if it is negative. -/
theorem toList_toString_int (n : Int) :
    (toString n).toList =
      if n < 0 then '-' :: Nat.toDigits 10 n.natAbs else Nat.toDigits 10 n.natAbs := by
  cases n with
  | ofNat m =>
      rw [if_neg (by simp), Int.natAbs_ofNat']
      exact Nat.toList_repr
  | negSucc m =>
      rw [if_pos (Int.negSucc_lt_zero m), Int.natAbs_negSucc]
      change ("-" ++ (m + 1).repr).toList = _
      rw [String.toList_append, Nat.toList_repr]
      rfl

theorem isNumeralChar_of_mem_toString {n : Int} {c : Char} (h : c ∈ (toString n).toList) :
    isNumeralChar c = true := by
  rw [toList_toString_int] at h
  split at h
  · rcases List.mem_cons.1 h with rfl | h
    · decide
    · exact isNumeralChar_of_mem_toDigits h
  · exact isNumeralChar_of_mem_toDigits h

theorem toList_toString_int_ne_nil (n : Int) : (toString n).toList ≠ [] := by
  rw [toList_toString_int]
  split
  · exact List.cons_ne_nil _ _
  · exact Nat.toDigits_ne_nil

/-! ## Reading back -/

theorem integer?_toString (n : Int) : integer? (toString n).toList = some n := by
  rw [toList_toString_int]
  split
  · rename_i hneg
    have hpos : 0 < n.natAbs := by omega
    rw [integer?, positive?_toDigits hpos]
    change some (-(n.natAbs : Int)) = some n
    rw [Option.some.injEq]
    omega
  · rename_i hnonneg
    have hnosign : ∀ c cs, Nat.toDigits 10 n.natAbs = c :: cs → c ≠ '+' ∧ c ≠ '-' := by
      intro c cs hcs
      have hdigit := Nat.isDigit_of_mem_toDigits (b := 10) (n := n.natAbs) (c := c) (by omega)
        (by omega) (by simp [hcs])
      constructor
      · rintro rfl
        exact absurd hdigit (by decide)
      · rintro rfl
        exact absurd hdigit (by decide)
    rw [integer?, natural?_toDigits, Option.map_some, Option.some.injEq]
    · exact Int.natAbs_of_nonneg (by omega)
    · intro cs hcs
      exact (hnosign _ _ hcs).1 rfl
    · intro cs hcs
      exact (hnosign _ _ hcs).2 rfl

theorem toList_toString_uint32 (n : UInt32) :
    (toString n).toList = Nat.toDigits 10 n.toNat :=
  Nat.toList_repr

theorem natural32?_toString (n : UInt32) : natural32? (toString n).toList = some n := by
  rw [natural32?, toList_toString_uint32, natural?_toDigits, Option.bind_some,
    if_pos n.toNat_lt_size, UInt32.ofNat_toNat]

theorem toList_toString_uint32_ne_nil (n : UInt32) : (toString n).toList ≠ [] := by
  rw [toList_toString_uint32]
  exact Nat.toDigits_ne_nil

theorem isNumeralChar_of_mem_toString_uint32 {n : UInt32} {c : Char}
    (h : c ∈ (toString n).toList) : isNumeralChar c = true := by
  rw [toList_toString_uint32] at h
  exact isNumeralChar_of_mem_toDigits h

theorem trim_of_forall_isNumeralChar {cs : List Char} (h : ∀ c ∈ cs, isNumeralChar c = true) :
    trim cs = cs :=
  trim_of_forall_not_isBlank fun c hc => isBlank_of_isNumeralChar (h c hc)

theorem unsigned?_toString (n : UInt32) : unsigned? (toString n).toList = some n := by
  rw [unsigned?, trim_of_forall_isNumeralChar fun _ => isNumeralChar_of_mem_toString_uint32,
    natural32?_toString]

theorem signed?_toString (n : Int32) : signed? (toString n).toList = some n := by
  have hinteger : (toString n).toList = (toString n.toInt).toList := rfl
  rw [signed?, hinteger, trim_of_forall_isNumeralChar fun _ => isNumeralChar_of_mem_toString,
    integer?_toString, Option.bind_some,
    if_pos ⟨Int32.minValue_le_toInt n, Int32.toInt_le n⟩, Int32.ofInt_toInt]

/-! ## What is read as a number -/

theorem digitChar_of_isDigit {c : Char} (h : c.isDigit = true) :
    c.toNat - '0'.toNat < 10 ∧ (c.toNat - '0'.toNat).digitChar = c := by
  have hrange : 48 ≤ c.toNat ∧ c.toNat ≤ 57 := by
    simpa [Char.isDigit, UInt32.le_iff_toNat_le] using h
  have hlt : c.toNat - '0'.toNat < 10 := by
    change c.toNat - 48 < 10
    omega
  refine ⟨hlt, Char.toNat_inj.1 ?_⟩
  rw [Nat.toNat_digitChar_of_lt_ten hlt]
  change 48 + (c.toNat - 48) = c.toNat
  omega

/-- Digits are put behind a number by reading on. -/
theorem toDigits_ofDigitChars {n : Nat} (hpos : 0 < n) {ds : List Char}
    (hds : ∀ d ∈ ds, d.isDigit = true) :
    Nat.toDigits 10 (Nat.ofDigitChars 10 ds n) = Nat.toDigits 10 n ++ ds := by
  induction ds generalizing n with
  | nil => rw [Nat.ofDigitChars_nil, List.append_nil]
  | cons d ds ih =>
      obtain ⟨hlt, hd⟩ := digitChar_of_isDigit (hds d List.mem_cons_self)
      rw [Nat.ofDigitChars_cons, ih (by omega) fun c hc => hds c (List.mem_cons_of_mem d hc),
        ← Nat.toDigits_append_toDigits (by omega) hpos hlt, Nat.toDigits_of_lt_base hlt, hd,
        List.append_assoc, List.singleton_append]

theorem toDigits_ofDigitChars_cons {d : Char} {ds : List Char}
    (first : d.isDigit = true ∧ d ≠ '0') (others : ∀ c ∈ ds, c.isDigit = true) :
    0 < Nat.ofDigitChars 10 (d :: ds) 0 ∧
      Nat.toDigits 10 (Nat.ofDigitChars 10 (d :: ds) 0) = d :: ds := by
  obtain ⟨hlt, hchar⟩ := digitChar_of_isDigit first.1
  have hpos : 0 < d.toNat - '0'.toNat := by
    rcases Nat.eq_zero_or_pos (d.toNat - '0'.toNat) with hzero | hpos
    · rw [hzero] at hchar
      exact absurd hchar.symm first.2
    · exact hpos
  rw [Nat.ofDigitChars_cons, Nat.mul_zero, Nat.zero_add]
  have hdigits := toDigits_ofDigitChars hpos others
  rw [Nat.toDigits_of_lt_base hlt, hchar, List.singleton_append] at hdigits
  refine ⟨Nat.pos_of_ne_zero fun hzero => ?_, hdigits⟩
  rw [hzero, Nat.toDigits_zero] at hdigits
  exact first.2 (List.cons.inj hdigits).1.symm

theorem positive?_cons {d : Char} {ds : List Char} (first : d.isDigit = true ∧ d ≠ '0')
    (others : ∀ c ∈ ds, c.isDigit = true) :
    positive? (d :: ds) = some (Nat.ofDigitChars 10 (d :: ds) 0) := by
  rw [positive?, if_pos]
  simpa [isLeadingDigit] using ⟨first, others⟩

theorem exists_of_positive? {cs : List Char} {n : Nat} (h : positive? cs = some n) :
    ∃ d ds, cs = d :: ds ∧ (d.isDigit = true ∧ d ≠ '0') ∧ (∀ c ∈ ds, c.isDigit = true) ∧
      n = Nat.ofDigitChars 10 (d :: ds) 0 := by
  cases cs with
  | nil => exact absurd h (by simp [positive?])
  | cons d ds =>
      rw [positive?] at h
      split at h
      · rename_i hdigits
        rw [Bool.and_eq_true, List.all_eq_true, isLeadingDigit, Bool.and_eq_true, bne_iff_ne]
          at hdigits
        exact ⟨d, ds, rfl, hdigits.1, hdigits.2, (Option.some.inj h).symm⟩
      · exact absurd h (by simp)

theorem positive?_eq_some_iff {cs : List Char} {n : Nat} :
    positive? cs = some n ↔ 0 < n ∧ cs = Nat.toDigits 10 n := by
  constructor
  · intro h
    obtain ⟨d, ds, rfl, first, others, rfl⟩ := exists_of_positive? h
    obtain ⟨hpos, hwritten⟩ := toDigits_ofDigitChars_cons first others
    exact ⟨hpos, hwritten.symm⟩
  · rintro ⟨hpos, rfl⟩
    exact positive?_toDigits hpos

theorem natural?_eq_some_iff {cs : List Char} {n : Nat} :
    natural? cs = some n ↔ cs = Nat.toDigits 10 n := by
  constructor
  · intro h
    rw [natural?] at h
    split at h
    · rename_i hzero
      rw [← Option.some.inj h, Nat.toDigits_zero, hzero]
    · exact (positive?_eq_some_iff.1 h).2
  · rintro rfl
    exact natural?_toDigits n

/-- A number below 2^32 is read from its decimal form and from no other text. -/
theorem natural32?_eq_some_iff {cs : List Char} {n : UInt32} :
    natural32? cs = some n ↔ cs = (toString n).toList := by
  constructor
  · intro h
    obtain ⟨m, hm, hn⟩ := Option.bind_eq_some_iff.1 h
    split at hn
    · rename_i hlt
      have hsame : n.toNat = m := by
        rw [← Option.some.inj hn, UInt32.toNat_ofNat', Nat.mod_eq_of_lt hlt]
      rw [toList_toString_uint32, hsame]
      exact natural?_eq_some_iff.1 hm
    · exact absurd hn (by simp)
  · rintro rfl
    exact natural32?_toString n

/-! ## Numbers with more behind them -/

theorem isDigit_of_mem_toString {n : UInt32} {c : Char} (h : c ∈ (toString n).toList) :
    c.isDigit = true := by
  rw [toList_toString_uint32] at h
  exact Nat.isDigit_of_mem_toDigits (by omega) (by omega) h

/-- What is read is a number in its decimal form. -/
theorem eq_append_of_readNatural32? {cs left : List Char} {n : UInt32}
    (h : readNatural32? cs = some (n, left)) : cs = (toString n).toList ++ left := by
  obtain ⟨⟨taken, rest⟩, hread, hvalue⟩ := Option.bind_eq_some_iff.1 h
  obtain ⟨m, hm, heq⟩ := Option.map_eq_some_iff.1 hvalue
  obtain ⟨rfl, rfl⟩ := Prod.mk.inj heq
  change natural32? taken = some _ at hm
  rw [← numeral.taken_append_left hread, ← natural32?_eq_some_iff.1 hm]

/-- All digits of a number are taken, and no more, if no digit follows. -/
theorem read?_numeral_append {n : Nat} {left : List Char}
    (hleft : ∀ c, left.head? = some c → c.isDigit = false) :
    numeral.read? (Nat.toDigits 10 n ++ left) = some (Nat.toDigits 10 n, left) := by
  by_cases hpos : 0 < n
  · obtain ⟨d, ds, hdigits⟩ := List.exists_cons_of_ne_nil (Nat.toDigits_ne_nil (n := n) (b := 10))
    have hd : isLeadingDigit d = true :=
      isLeadingDigit_head_toDigits hpos (by rw [hdigits, List.head?_cons])
    have hds : ∀ c ∈ ds, (!c.isDigit) = false := fun c hc => by
      simp [Nat.isDigit_of_mem_toDigits (b := 10) (n := n) (c := c) (by omega) (by omega)
        (by rw [hdigits]; exact List.mem_cons_of_mem d hc)]
    have hrest : (Reader.takeTill fun c => !c.isDigit).read? (ds ++ left) = some (ds, left) :=
      Reader.read?_takeTill_append hds fun c hc => by simp [hleft c hc]
    have hread : ((Reader.one isLeadingDigit).andThen (.takeTill fun c => !c.isDigit)).read?
        (d :: (ds ++ left)) = some (d :: ds, left) :=
      Reader.read?_andThen_eq_some_iff.2
        ⟨[d], ds ++ left, ds, Reader.read?_one_cons hd _, hrest, rfl⟩
    rw [hdigits, List.cons_append]
    exact Option.or_eq_some_iff.2 (Or.inl hread)
  · have hzero : Nat.toDigits 10 n = ['0'] := by
      rw [Nat.eq_zero_of_not_pos hpos, Nat.toDigits_zero]
    rw [hzero]
    rfl

theorem readNatural32?_append {n : UInt32} {left : List Char}
    (hleft : ∀ c, left.head? = some c → c.isDigit = false) :
    readNatural32? ((toString n).toList ++ left) = some (n, left) := by
  have hread : numeral.read? ((toString n).toList ++ left) = some ((toString n).toList, left) := by
    rw [toList_toString_uint32]
    exact read?_numeral_append hleft
  rw [readNatural32?, hread, Option.bind_some, natural32?_toString, Option.map_some]

end EventModel.Text
