import EventModel.Proofs.Document.Writing
import EventModel.Proofs.Text.Integers

/-!
# Written coordinates

Coordinates are read from the texts that are two integers with one separator between them, once
white space is left out, and from no others.  A text without exactly one separator of either sort is
no pair of coordinates, and any other that is refused has a part that is no integer
(`read_exactly`).
-/

namespace EventModel.Cell

open Text (WritesInteger isBlank IsGap Padded)

/-! ## Written forms -/

/-- A text without its white space. -/
def compact (text : List Char) : List Char := text.filter fun c => !isBlank c

theorem compact_append (as bs : List Char) : compact (as ++ bs) = compact as ++ compact bs :=
  List.filter_append as bs

theorem compact_cons {c : Char} (hc : isBlank c = false) (cs : List Char) :
    compact (c :: cs) = c :: compact cs :=
  List.filter_cons_of_pos (by simp [hc])

theorem compact_trim (cs : List Char) : compact (Text.trim cs) = compact cs :=
  Text.filter_trim cs

theorem count_compact {c : Char} (hc : isBlank c = false) (cs : List Char) :
    (compact cs).count c = cs.count c :=
  Text.count_filter_isBlank hc cs

theorem compact_of_isGap {cs : List Char} (h : IsGap cs) : compact cs = [] :=
  List.filter_eq_nil_iff.2 fun c hc => by simp [(h c hc).1]

theorem compact_of_padded {inner outer : List Char} (h : Padded inner outer) :
    compact outer = compact inner := by
  obtain ⟨front, back, hfront, hback, rfl⟩ := h
  rw [compact_append, compact_append, compact_of_isGap hfront, compact_of_isGap hback,
    List.nil_append, List.append_nil]

theorem compact_column (n : Int32) : compact (toString n).toList = (toString n).toList :=
  List.filter_eq_self.2 fun c hc => by
    simp [Text.isBlank_of_isNumeralChar (Declaration.isNumeralChar_of_mem_column hc)]

/-- The text is the column and the row of a cell, each in a written form, with a separator between
them. -/
structure IsWritten (text : List Char) (cell : Cell) (x : List Char) (sep : Char)
    (y : List Char) : Prop where
  split : text = x ++ sep :: y
  separator : sep = ';' ∨ sep = ':' ∨ sep = ','
  column : WritesInteger x cell.column.toInt
  row : WritesInteger y cell.row.toInt

/-- A written cell with another separator. -/
def writtenWith (sep : Char) (cell : Cell) : List Char :=
  (toString cell).toList.map fun c => if c = ';' then sep else c

/-- Semicolons, colons and commas. -/
def isAnySeparator (c : Char) : Bool := isSeparator c || c == ','

theorem isAnySeparator_iff {c : Char} :
    isAnySeparator c = true ↔ c = ';' ∨ c = ':' ∨ c = ',' := by
  simp [isAnySeparator, isSeparator, or_assoc]

theorem isAnySeparator_of_mem {cs : List Char} {n : Int} (h : WritesInteger cs n) :
    ∀ c ∈ cs, isAnySeparator c = false := by
  intro c hc
  rw [Bool.eq_false_iff]
  intro hsep
  have hplain := Text.isDigit_or_sign_of_writesInteger h hc
  rcases isAnySeparator_iff.1 hsep with rfl | rfl | rfl <;> exact absurd hplain (by decide)

/-- There is one way at most to take a text apart, and it leads to one cell. -/
theorem IsWritten.unique {text : List Char} {cell cell' : Cell} {x y x' y' : List Char}
    {sep sep' : Char} (h : IsWritten text cell x sep y) (h' : IsWritten text cell' x' sep' y') :
    cell = cell' ∧ x = x' ∧ sep = sep' ∧ y = y' := by
  have hcut : text.splitOnP isAnySeparator = [x, y] :=
    splitOnP_eq_pair_iff.2 ⟨sep, h.split, isAnySeparator_iff.2 h.separator,
      isAnySeparator_of_mem h.column, isAnySeparator_of_mem h.row⟩
  have hcut' : text.splitOnP isAnySeparator = [x', y'] :=
    splitOnP_eq_pair_iff.2 ⟨sep', h'.split, isAnySeparator_iff.2 h'.separator,
      isAnySeparator_of_mem h'.column, isAnySeparator_of_mem h'.row⟩
  rw [hcut] at hcut'
  obtain ⟨rfl, htail⟩ := List.cons.inj hcut'
  obtain ⟨rfl, -⟩ := List.cons.inj htail
  have hsep := h.split.symm.trans h'.split
  have hrow : cell.row = cell'.row := Int32.toInt_inj.1 (h.row.unique h'.row)
  have hcolumn : cell.column = cell'.column := Int32.toInt_inj.1 (h.column.unique h'.column)
  refine ⟨?_, rfl, (List.cons.inj (List.append_cancel_left hsep)).1, rfl⟩
  cases cell
  cases cell'
  exact congrArg₂ Cell.mk hrow hcolumn

/-! ## Parts -/

theorem countP_isSeparator (text : List Char) :
    text.countP isSeparator = text.count ';' + text.count ':' := by
  induction text with
  | nil => rfl
  | cons c cs ih =>
      rw [List.countP_cons, ih, List.count_cons, List.count_cons, isSeparator]
      by_cases hsemicolon : c = ';'
      · simp [hsemicolon]
        omega
      · by_cases hcolon : c = ':'
        · simp [hcolon]
          omega
        · simp [hsemicolon, hcolon]

/-- The two entries of a list of two. -/
def pair? {α : Type} : List α → Option (α × α)
  | [a, b] => some (a, b)
  | _ => none

theorem pair?_eq_some_iff {α : Type} {as : List α} {a b : α} :
    pair? as = some (a, b) ↔ as = [a, b] := by
  unfold pair?
  split <;> simp_all

theorem pair?_eq_none_iff {α : Type} {as : List α} : pair? as = none ↔ as.length ≠ 2 := by
  unfold pair?
  split
  · simp
  · rename_i hother
    rw [ne_eq, List.length_eq_two]
    simp only [true_iff, not_exists]
    exact hother

/-- A text is cut at the one semicolon or colon, or else at the one comma. -/
theorem parts?_eq (text : List Char) :
    parts? text = (pair? (text.splitOnP isSeparator)).or (pair? (text.splitOn ',')) := by
  unfold parts? pair?
  split <;> simp_all

theorem parts?_eq_some_iff {text x y : List Char} :
    parts? text = some (x, y) ↔
      text.splitOnP isSeparator = [x, y] ∨
        text.countP isSeparator ≠ 1 ∧ text.splitOnP (· == ',') = [x, y] := by
  rw [parts?_eq, Option.or_eq_some_iff, pair?_eq_some_iff, pair?_eq_some_iff, pair?_eq_none_iff,
    length_splitOnP, List.splitOn_eq_splitOnP, ne_eq, Nat.add_right_cancel_iff]

theorem parts?_eq_none_iff {text : List Char} :
    parts? text = none ↔ text.count ';' + text.count ':' ≠ 1 ∧ text.count ',' ≠ 1 := by
  rw [parts?_eq, Option.or_eq_none_iff, pair?_eq_none_iff, pair?_eq_none_iff, length_splitOnP,
    countP_isSeparator, List.splitOn_eq_splitOnP, length_splitOnP, ne_eq, ne_eq,
    Nat.add_right_cancel_iff, Nat.add_right_cancel_iff, ← List.count]

/-! ## Reading -/

theorem isBlank_of_mem_compact {text : List Char} {c : Char} (h : c ∈ compact text) :
    isBlank c = false := by
  simpa using (List.mem_filter.1 h).2

/-- Between its parts a text has a separator. -/
theorem exists_of_parts? {text x y : List Char} (h : parts? text = some (x, y)) :
    ∃ sep, (sep = ';' ∨ sep = ':' ∨ sep = ',') ∧ text = x ++ sep :: y := by
  rcases parts?_eq_some_iff.1 h with hcut | ⟨-, hcut⟩
  · obtain ⟨sep, hsplit, hsep, -⟩ := splitOnP_eq_pair_iff.1 hcut
    exact ⟨sep, isAnySeparator_iff.1 (by rw [isAnySeparator, hsep, Bool.true_or]), hsplit⟩
  · obtain ⟨sep, hsplit, hsep, -⟩ := splitOnP_eq_pair_iff.1 hcut
    exact ⟨sep, isAnySeparator_iff.1 (by rw [isAnySeparator, hsep, Bool.or_true]), hsplit⟩

theorem parts?_of_isWritten {text x y : List Char} {cell : Cell} {sep : Char}
    (h : IsWritten text cell x sep y) : parts? text = some (x, y) := by
  have hx := isAnySeparator_of_mem h.column
  have hy := isAnySeparator_of_mem h.row
  simp only [isAnySeparator, Bool.or_eq_false_iff] at hx hy
  rw [parts?_eq_some_iff]
  by_cases hsep : isSeparator sep = true
  · exact Or.inl (splitOnP_eq_pair_iff.2
      ⟨sep, h.split, hsep, fun c hc => (hx c hc).1, fun c hc => (hy c hc).1⟩)
  · have hcomma : sep = ',' := by
      rcases h.separator with rfl | rfl | rfl
      · exact absurd rfl hsep
      · exact absurd rfl hsep
      · rfl
    refine Or.inr ⟨?_, splitOnP_eq_pair_iff.2
      ⟨sep, h.split, by simp [hcomma], fun c hc => (hx c hc).2, fun c hc => (hy c hc).2⟩⟩
    have hnone : text.countP isSeparator = 0 := by
      rw [List.countP_eq_zero, h.split]
      intro c hc
      rw [Bool.not_eq_true]
      rcases List.mem_append.1 hc with hc | hc
      · exact (hx c hc).1
      · rcases List.mem_cons.1 hc with rfl | hc
        · simpa using hsep
        · exact (hy c hc).1
    rw [hnone]
    decide

/-- Coordinates are read if there are two parts and both are integers. -/
theorem read_eq_ok_iff_parts {text : List Char} {cell : Cell} :
    read text = .ok cell ↔ ∃ x y, parts? (compact text) = some (x, y) ∧
      Text.signed? x = some cell.column ∧ Text.signed? y = some cell.row := by
  rw [read, ← compact]
  constructor
  · intro h
    split at h
    · exact absurd h (by simp)
    · rename_i x y hparts
      split at h
      · rename_i column row hcolumn hrow
        rw [← Except.ok.inj h]
        exact ⟨x, y, hparts, hcolumn, hrow⟩
      · exact absurd h (by simp)
  · rintro ⟨x, y, hparts, hcolumn, hrow⟩
    simp only [hparts, hcolumn, hrow]

/-- In a text without white space, the parts have none. -/
theorem trim_of_compact_eq {text x y : List Char} {sep : Char}
    (h : compact text = x ++ sep :: y) : Text.trim x = x ∧ Text.trim y = y := by
  have hblank : ∀ c ∈ x ++ sep :: y, isBlank c = false := by
    rw [← h]
    exact fun c hc => isBlank_of_mem_compact hc
  rw [List.forall_mem_append, List.forall_mem_cons] at hblank
  exact ⟨Text.trim_of_forall_not_isBlank hblank.1, Text.trim_of_forall_not_isBlank hblank.2.2⟩

/-- A cell is read from its written forms and from nothing else. -/
theorem read_eq_ok_iff {text : List Char} {cell : Cell} :
    read text = .ok cell ↔ ∃ x sep y, IsWritten (compact text) cell x sep y := by
  rw [read_eq_ok_iff_parts]
  constructor
  · rintro ⟨x, y, hparts, hcolumn, hrow⟩
    obtain ⟨sep, hsep, hsplit⟩ := exists_of_parts? hparts
    obtain ⟨hx, hy⟩ := trim_of_compact_eq hsplit
    rw [Text.signed?_eq_some_iff, hx] at hcolumn
    rw [Text.signed?_eq_some_iff, hy] at hrow
    exact ⟨x, sep, y, hsplit, hsep, hcolumn, hrow⟩
  · rintro ⟨x, sep, y, h⟩
    obtain ⟨hx, hy⟩ := trim_of_compact_eq h.split
    refine ⟨x, y, parts?_of_isWritten h, ?_, ?_⟩
    · rw [Text.signed?_eq_some_iff, hx]
      exact h.column
    · rw [Text.signed?_eq_some_iff, hy]
      exact h.row

theorem read_eq_format_iff {text : List Char} :
    read text = .error .format ↔ parts? (compact text) = none := by
  rw [read, ← compact]
  constructor
  · intro h
    split at h
    · assumption
    · split at h <;> exact absurd h (by simp)
  · intro h
    simp only [h]

theorem read_eq_nonNumeric_iff {text : List Char} :
    read text = .error .nonNumeric ↔
      (∀ cell, read text ≠ .ok cell) ∧ read text ≠ .error .format := by
  cases read text with
  | ok cell => simp
  | error fault => cases fault <;> simp

/-! ## Written cells -/

theorem isWritten_writtenWith {sep : Char} (hsep : sep = ';' ∨ sep = ':' ∨ sep = ',')
    (cell : Cell) :
    IsWritten (writtenWith sep cell) cell (toString cell.column).toList sep
      (toString cell.row).toList := by
  have hkept : ∀ n : Int32, (toString n).toList.map (fun c => if c = ';' then sep else c) =
      (toString n).toList := by
    intro n
    conv => rhs; rw [← List.map_id (toString n).toList]
    refine List.map_congr_left fun c hc => if_neg ?_
    rintro rfl
    exact absurd (Declaration.isNumeralChar_of_mem_column hc) (by decide)
  refine ⟨?_, hsep, Text.writesInteger_of_integer? (Text.integer?_toString cell.column.toInt),
    Text.writesInteger_of_integer? (Text.integer?_toString cell.row.toInt)⟩
  rw [writtenWith, Declaration.toList_toString_cell, List.map_append, List.map_cons, hkept, hkept,
    if_pos rfl]

/-- A written cell is read back, whatever its separator and wherever white space is put. -/
theorem read_of_compact_eq {text : List Char} {cell : Cell} {sep : Char}
    (hsep : sep = ';' ∨ sep = ':' ∨ sep = ',') (h : compact text = writtenWith sep cell) :
    read text = .ok cell := by
  rw [read_eq_ok_iff, h]
  exact ⟨_, _, _, isWritten_writtenWith hsep cell⟩

theorem isBlank_of_separator {sep : Char} (h : sep = ';' ∨ sep = ':' ∨ sep = ',') :
    isBlank sep = false := by
  rcases h with rfl | rfl | rfl <;> decide

/-- White space around column and row does not matter. -/
theorem compact_written {cell : Cell} {sep : Char} (hsep : sep = ';' ∨ sep = ':' ∨ sep = ',')
    {column row : List Char} (hcolumn : Padded (toString cell.column).toList column)
    (hrow : Padded (toString cell.row).toList row) :
    compact (column ++ sep :: row) = writtenWith sep cell := by
  rw [compact_append, compact_cons (isBlank_of_separator hsep), compact_of_padded hcolumn,
    compact_of_padded hrow, compact_column, compact_column, (isWritten_writtenWith hsep cell).split]

theorem read_toString (cell : Cell) : read (toString cell).toList = .ok cell := by
  apply read_of_compact_eq (Or.inl rfl)
  rw [Declaration.toList_toString_cell]
  exact compact_written (Or.inl rfl) (Padded.refl _) (Padded.refl _)

/-- **Coordinates are read from their written forms and from nothing else.**  White space is left
out first.  What remains is read as a cell if it is two integers of 32 bits with a separator between
them, and can be taken apart in one way only.  It is refused for its form if neither semicolons and
colons together nor commas occur just once, and else because a part is no such integer.  So every
cell is read back, with each separator and with white space anywhere. -/
theorem read_exactly (text : List Char) :
    (∀ cell, read text = .ok cell ↔ ∃ x sep y, IsWritten (compact text) cell x sep y) ∧
      (∀ cell x sep y cell' x' sep' y', IsWritten (compact text) cell x sep y →
        IsWritten (compact text) cell' x' sep' y' →
          cell = cell' ∧ x = x' ∧ sep = sep' ∧ y = y') ∧
      (read text = .error .format ↔
        (compact text).count ';' + (compact text).count ':' ≠ 1 ∧ (compact text).count ',' ≠ 1) ∧
      (read text = .error .nonNumeric ↔
        (∀ cell x sep y, ¬IsWritten (compact text) cell x sep y) ∧
          ((compact text).count ';' + (compact text).count ':' = 1 ∨
            (compact text).count ',' = 1)) ∧
      ∀ cell sep, (sep = ';' ∨ sep = ':' ∨ sep = ',') → compact text = writtenWith sep cell →
        read text = .ok cell := by
  have hformat : read text = .error .format ↔
      (compact text).count ';' + (compact text).count ':' ≠ 1 ∧ (compact text).count ',' ≠ 1 := by
    rw [read_eq_format_iff, parts?_eq_none_iff]
  refine ⟨fun cell => read_eq_ok_iff, fun _ _ _ _ _ _ _ _ => IsWritten.unique, hformat, ?_,
    fun cell sep => read_of_compact_eq⟩
  rw [read_eq_nonNumeric_iff, ne_eq, hformat, not_and_or, not_not, not_not]
  simp only [ne_eq, read_eq_ok_iff, not_exists]

/-- White space of several widths, also inside of a number, and both integers at their limits. -/
theorem read_exactly_spread :
    compact "\u3000-21474 83648\t:\n2147483647\u00a0".toList =
        writtenWith ':' ⟨2147483647, -2147483648⟩ ∧
      read "\u3000-21474 83648\t:\n2147483647\u00a0".toList =
        .ok ⟨2147483647, -2147483648⟩ := by
  have hcompact : compact "\u3000-21474 83648\t:\n2147483647\u00a0".toList =
      writtenWith ':' ⟨2147483647, -2147483648⟩ := by decide +kernel
  obtain ⟨-, -, -, -, hread⟩ := read_exactly "\u3000-21474 83648\t:\n2147483647\u00a0".toList
  exact ⟨hcompact, hread _ ':' (by decide) hcompact⟩

end EventModel.Cell
