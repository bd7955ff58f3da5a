import EventModel.Proofs.Rule.Compliance
import Mathlib.Data.Finset.Dedup
import Mathlib.Data.Finset.Insert
import Mathlib.Data.List.Forall2

/-!
# Moving elements to the rows expected of them

Row by row, the check of bands reports the elements of unrecognized kind and the misplaced ones, and
for each of the latter it names a row to move it to.  Only external events look at other elements,
and the limit that they look at does not depend on events that are misplaced
(`externalEventLimit_repaired`).  So the moves can be made in any selection: each mends its element
and none affects what is reported on another (`rowWarnings_repaired`).
-/

namespace EventModel

/-! ## The limit for external events -/

theorem lowestEventRow?_eq_none_iff {elements : List Element} :
    lowestEventRow? elements = none ↔ ∀ e ∈ elements, ¬e.isKind .event = true := by
  rw [lowestEventRow?, List.min?_eq_none_iff, List.map_eq_nil_iff, List.filter_eq_nil_iff]

theorem lowestEventRow?_eq_some_iff {elements : List Element} {lowest : Int32} :
    lowestEventRow? elements = some lowest ↔
      (∃ e ∈ elements, e.isKind .event = true ∧ e.row = lowest) ∧
        ∀ e ∈ elements, e.isKind .event = true → lowest ≤ e.row := by
  rw [lowestEventRow?, List.min?_eq_some_iff, List.mem_map, List.forall_mem_map]
  simp only [List.mem_filter, and_imp, and_assoc]

/-- The row below is told by comparison, except for the lowest row, below which rows wrap around. -/
theorem le_sub_one_iff {row lowest : Int32} (h : lowest ≠ Int32.minValue) :
    row ≤ lowest - 1 ↔ row < lowest := by
  grind

/-- No event stands in the lowest row of all, so that there is a row below every event. -/
def HasRoomBelow (elements : List Element) : Prop :=
  ∀ e ∈ elements, e.isKind .event = true → e.row ≠ Int32.minValue

/-- The limit is the highest row that is not above row -2 and below every event. -/
theorem le_externalEventLimit_iff {elements : List Element} (hroom : HasRoomBelow elements)
    {row : Int32} :
    row ≤ externalEventLimit elements ↔
      row ≤ -2 ∧ ∀ e ∈ elements, e.isKind .event = true → row < e.row := by
  rw [externalEventLimit]
  cases hrow : lowestEventRow? elements with
  | none =>
      have hnone := lowestEventRow?_eq_none_iff.1 hrow
      exact (and_iff_left fun e he hkind => absurd hkind (hnone e he)).symm
  | some lowest =>
      obtain ⟨⟨event, hevent, hkind, rfl⟩, hle⟩ := lowestEventRow?_eq_some_iff.1 hrow
      rw [Option.elim_some, Std.le_min_iff, le_sub_one_iff (hroom event hevent hkind), and_comm]
      refine and_congr_right fun _ => ⟨fun hlt e he hkind => ?_, fun hlt => hlt event hevent hkind⟩
      exact Int32.lt_of_lt_of_le hlt (hle e he hkind)

theorem externalEventLimit_lt_iff {elements : List Element} (hroom : HasRoomBelow elements)
    {row : Int32} :
    externalEventLimit elements < row ↔
      -2 < row ∨ ∃ e ∈ elements, e.isKind .event = true ∧ e.row ≤ row := by
  rw [← Int32.not_le, le_externalEventLimit_iff hroom, Decidable.not_and_iff_not_or_not,
    Int32.not_le]
  simp only [not_forall, Int32.not_lt, exists_prop]

/-- The element in another row of its column. -/
def Element.atRow (e : Element) (row : Int32) : Element :=
  { e with cell := { e.cell with row := row } }

@[simp] theorem Element.kind?_atRow (e : Element) (row : Int32) :
    (e.atRow row).kind? = e.kind? := rfl

@[simp] theorem Element.isKind_atRow (e : Element) (row : Int32) (kind : ElementKind) :
    (e.atRow row).isKind kind = e.isKind kind := rfl

@[simp] theorem Element.row_atRow (e : Element) (row : Int32) : (e.atRow row).row = row := rfl

namespace Positioning

/-! ## Misplaced elements -/

/-- An element of a recognized kind stands outside the rows of its kind: a trigger not above row
zero, a command or a read model off it, an event not below it, and an external event above row -2
or not below some event. -/
def IsMisplaced (elements : List Element) (e : Element) : Prop :=
  ((e.isKind .screen = true ∨ e.isKind .automation = true) ∧ e.row ≤ 0) ∨
    ((e.isKind .command = true ∨ e.isKind .readModel = true) ∧ e.row ≠ 0) ∨
    (e.isKind .event = true ∧ 0 ≤ e.row) ∨
    (e.isKind .externalEvent = true ∧
      (-2 < e.row ∨ ∃ event ∈ elements, event.isKind .event = true ∧ event.row ≤ e.row))

instance (elements : List Element) : DecidablePred (IsMisplaced elements) := fun _ =>
  inferInstanceAs (Decidable (_ ∨ _))

/-- The row to which a misplaced element should be moved. -/
def expectedRow (elements : List Element) (e : Element) : Int32 :=
  match e.kind? with
  | some .screen | some .automation => 1
  | some .event => -1
  | some .externalEvent => externalEventLimit elements
  | some .command | some .readModel | none => 0

theorem expectedRow_of_isKind_event {elements : List Element} {e : Element}
    (h : e.isKind .event = true) : expectedRow elements e = -1 := by
  rw [expectedRow, beq_iff_eq.1 h]

theorem expectedRow_eq_bound {elements : List Element} {e : Element} {kind : ElementKind}
    (h : e.kind? = some kind) :
    expectedRow elements e = (kind.band (externalEventLimit elements)).bound := by
  rw [expectedRow, h]
  cases kind <;> rfl

theorem isMisplaced_iff {elements : List Element} (hroom : HasRoomBelow elements) {e : Element} :
    IsMisplaced elements e ↔ ∃ kind, e.kind? = some kind ∧
      (kind.band (externalEventLimit elements)).contains e.row = false := by
  cases hkind : e.kind? with
  | none => simp [IsMisplaced, Element.isKind, hkind]
  | some kind =>
      have hlimit := @externalEventLimit_lt_iff elements hroom e.row
      simp only [Element.isKind, beq_iff_eq] at hlimit
      simp only [IsMisplaced, Element.isKind, hkind, Option.some.injEq, exists_eq_left', beq_iff_eq]
      cases kind with
      | screen | automation =>
          have hstep : e.row ≤ 0 ↔ e.row < 1 := by grind
          simp [ElementKind.band, RowBand.contains, hstep]
      | command | readModel => simp [ElementKind.band, RowBand.contains]
      | event =>
          have hstep : 0 ≤ e.row ↔ -1 < e.row := by grind
          simp [ElementKind.band, RowBand.contains, hstep]
      | externalEvent => simp [ElementKind.band, RowBand.contains, hlimit]

/-! ## What is reported -/

/-- A report that asks to move an element to a row. -/
structure AsksToMove (e : Element) (row : Int32) (d : Diagnostic) : Prop where
  code : d.code = .rowConvention
  line : d.line = e.origin
  message : ∃ kind, e.kind? = some kind ∧
    d.message = s!"Element {quoteName e.name} should be positioned at row {row}, " ++
      s!"but is at row {e.row}. {kind.rowRule}"
  help : d.help = some s!"move the element to row {row}"

/-- What is reported on an element that is misplaced or of no recognized kind. -/
def Reports (elements : List Element) (e : Element) (d : Diagnostic) : Prop :=
  (e.kind? = none ∧ d.code = .unrecognizedKind ∧ d.line = e.origin) ∨
    (IsMisplaced elements e ∧ AsksToMove e (expectedRow elements e) d)

/-- The report on an element, if it is misplaced. -/
def rowWarning? (limit : Int32) (e : Element) : Option Diagnostic :=
  ((rowViolation? limit e).map Violation.diagnostic).filter (·.code == .rowConvention)

/-- The reports on misplaced elements. -/
def rowWarnings (elements : List Element) : List Diagnostic :=
  ((rowViolations elements).map Violation.diagnostic).filter (·.code == .rowConvention)

theorem rowViolation?_of_kind?_eq_none {limit : Int32} {e : Element} (h : e.kind? = none) :
    rowViolation? limit e = some (.unrecognizedKind e) := by
  simp only [rowViolation?, h]

section Reporting

variable {elements : List Element} (hroom : HasRoomBelow elements)

include hroom

theorem rowViolation?_of_isMisplaced {e : Element} (h : IsMisplaced elements e) :
    ∃ v, rowViolation? (externalEventLimit elements) e = some v ∧
      AsksToMove e (expectedRow elements e) v.diagnostic := by
  obtain ⟨kind, hkind, hband⟩ := (isMisplaced_iff hroom).1 h
  refine ⟨.outsideBand e kind (kind.band (externalEventLimit elements)), ?_, rfl, rfl, ?_, ?_⟩
  · simp only [rowViolation?, hkind, hband, Bool.false_eq_true, if_false]
  · rw [expectedRow_eq_bound hkind]
    exact ⟨kind, hkind, rfl⟩
  · rw [expectedRow_eq_bound hkind]
    rfl

theorem rowViolation?_of_not_isMisplaced {e : Element} (hkind : e.kind? ≠ none)
    (h : ¬IsMisplaced elements e) :
    rowViolation? (externalEventLimit elements) e = none := by
  obtain ⟨kind, hkind⟩ := Option.ne_none_iff_exists'.1 hkind
  have hband : (kind.band (externalEventLimit elements)).contains e.row = true := by
    by_contra hband
    rw [Bool.not_eq_true] at hband
    exact h ((isMisplaced_iff hroom).2 ⟨kind, hkind, hband⟩)
  simp only [rowViolation?, hkind, hband, if_true]

theorem rowWarning?_of_isMisplaced {e : Element} (h : IsMisplaced elements e) :
    ∃ d, rowWarning? (externalEventLimit elements) e = some d ∧
      AsksToMove e (expectedRow elements e) d := by
  obtain ⟨v, hv, hasks⟩ := rowViolation?_of_isMisplaced hroom h
  refine ⟨v.diagnostic, ?_, hasks⟩
  rw [rowWarning?, hv, Option.map_some, Option.filter_some, if_pos (beq_iff_eq.2 hasks.code)]

theorem rowWarning?_of_not_isMisplaced {e : Element} (h : ¬IsMisplaced elements e) :
    rowWarning? (externalEventLimit elements) e = none := by
  rw [rowWarning?]
  by_cases hkind : e.kind? = none
  · rw [rowViolation?_of_kind?_eq_none hkind]
    rfl
  · rw [rowViolation?_of_not_isMisplaced hroom hkind h]
    rfl

theorem reports_rowViolations :
    List.Forall₂ (Reports elements)
      (elements.filter fun e => e.kind? = none ∨ IsMisplaced elements e)
      ((rowViolations elements).map Violation.diagnostic) := by
  rw [rowViolations, List.map_filterMap]
  refine forall₂_filter_filterMap ?_ ?_
  · intro e _ h
    by_cases hkind : e.kind? = none
    · exact ⟨_, by rw [rowViolation?_of_kind?_eq_none hkind]; rfl, Or.inl ⟨hkind, rfl, rfl⟩⟩
    · have hmisplaced := (of_decide_eq_true h).resolve_left hkind
      obtain ⟨v, hv, hasks⟩ := rowViolation?_of_isMisplaced hroom hmisplaced
      exact ⟨v.diagnostic, by rw [hv]; rfl, Or.inr ⟨hmisplaced, hasks⟩⟩
  · intro e _ h
    obtain ⟨hkind, hmisplaced⟩ := not_or.1 (of_decide_eq_false h)
    rw [rowViolation?_of_not_isMisplaced hroom hkind hmisplaced]
    rfl

end Reporting

/-! ## Moving elements -/

/-- The positions in a list at which elements are misplaced. -/
def misplacedAt (elements : List Element) : List ℕ :=
  (elements.zipIdx.filter fun p => IsMisplaced elements p.1).map Prod.snd

/-- The reports on misplaced elements, each with the position of its element. -/
def rowWarningsAt (elements : List Element) : List (ℕ × Diagnostic) :=
  (misplacedAt elements).zip (rowWarnings elements)

/-- An element with its position, moved to the row expected of it if its position is chosen. -/
def move (elements : List Element) (chosen : Finset ℕ) (p : Element × ℕ) : Element :=
  if p.2 ∈ chosen then p.1.atRow (expectedRow elements p.1) else p.1

/-- The elements after those at some positions have been moved to the rows expected of them. -/
def repaired (chosen : Finset ℕ) (elements : List Element) : List Element :=
  elements.zipIdx.map (move elements chosen)

theorem rowWarnings_eq (elements : List Element) :
    rowWarnings elements =
      elements.zipIdx.filterMap fun p => rowWarning? (externalEventLimit elements) p.1 := by
  rw [filterMap_zipIdx_fst, rowWarnings, rowViolations, List.map_filterMap, List.filter_filterMap]
  rfl

theorem mem_misplacedAt {elements : List Element} {i : ℕ} :
    i ∈ misplacedAt elements ↔ ∃ e, elements[i]? = some e ∧ IsMisplaced elements e := by
  simp [misplacedAt, List.mem_zipIdx_iff_getElem?]

section Positions

variable {elements : List Element} (hroom : HasRoomBelow elements)

include hroom

theorem isSome_rowWarning? {e : Element} :
    (rowWarning? (externalEventLimit elements) e).isSome = decide (IsMisplaced elements e) := by
  by_cases h : IsMisplaced elements e
  · obtain ⟨d, hd, -⟩ := rowWarning?_of_isMisplaced hroom h
    rw [hd, decide_eq_true h]
    rfl
  · rw [rowWarning?_of_not_isMisplaced hroom h, decide_eq_false h]
    rfl

theorem rowWarningsAt_eq :
    rowWarningsAt elements = elements.zipIdx.filterMap fun p =>
      (rowWarning? (externalEventLimit elements) p.1).map (p.2, ·) := by
  rw [rowWarningsAt, misplacedAt, rowWarnings_eq]
  exact zip_map_filter_filterMap fun p _ => (isSome_rowWarning? hroom).symm

theorem asksToMove_rowWarnings :
    List.Forall₂
      (fun i d => ∃ e, elements[i]? = some e ∧ AsksToMove e (expectedRow elements e) d)
      (misplacedAt elements) (rowWarnings elements) := by
  rw [misplacedAt, rowWarnings_eq, List.forall₂_map_left_iff]
  refine forall₂_filter_filterMap ?_ ?_
  · intro p hp h
    obtain ⟨d, hd, hasks⟩ := rowWarning?_of_isMisplaced hroom (of_decide_eq_true h)
    exact ⟨d, hd, p.1, List.mem_zipIdx_iff_getElem?.1 hp, hasks⟩
  · intro p _ h
    exact rowWarning?_of_not_isMisplaced hroom (of_decide_eq_false h)

theorem map_fst_rowWarningsAt : (rowWarningsAt elements).map Prod.fst = misplacedAt elements :=
  List.map_fst_zip (asksToMove_rowWarnings hroom).length_eq.le

theorem map_snd_rowWarningsAt : (rowWarningsAt elements).map Prod.snd = rowWarnings elements :=
  List.map_snd_zip (asksToMove_rowWarnings hroom).length_eq.ge

/-- What is moved to the row expected of it is in its place. -/
theorem not_isMisplaced_atRow (e : Element) :
    ¬IsMisplaced elements (e.atRow (expectedRow elements e)) := by
  rw [isMisplaced_iff hroom]
  rintro ⟨kind, hkind, hband⟩
  rw [Element.kind?_atRow] at hkind
  rw [Element.row_atRow, expectedRow_eq_bound hkind, RowBand.contains_bound] at hband
  exact absurd hband (by decide)

end Positions

section Repairs

variable {elements : List Element} {chosen : Finset ℕ}

theorem isKind_move (p : Element × ℕ) (kind : ElementKind) :
    (move elements chosen p).isKind kind = p.1.isKind kind := by
  rw [move]
  split
  · exact p.1.isKind_atRow _ kind
  · rfl

theorem getElem?_repaired (i : ℕ) :
    (repaired chosen elements)[i]? = elements[i]?.map fun e => move elements chosen (e, i) := by
  simp [repaired, Function.comp_def]

variable (hroom : HasRoomBelow elements) (hchosen : ∀ i ∈ chosen, i ∈ misplacedAt elements)

include hchosen in
theorem isMisplaced_of_mem_chosen {p : Element × ℕ} (hp : p ∈ elements.zipIdx)
    (h : p.2 ∈ chosen) : IsMisplaced elements p.1 := by
  obtain ⟨e, he, hmisplaced⟩ := mem_misplacedAt.1 (hchosen p.2 h)
  rw [List.mem_zipIdx_iff_getElem?.1 hp] at he
  exact Option.some.inj he ▸ hmisplaced

include hroom in
/-- An event that is moved comes to stand in row -1. -/
theorem hasRoomBelow_repaired : HasRoomBelow (repaired chosen elements) := by
  rw [HasRoomBelow, repaired, List.forall_mem_map]
  intro p hp hkind
  rw [isKind_move] at hkind
  rw [move]
  split
  · rw [Element.row_atRow, expectedRow_of_isKind_event hkind]
    decide
  · exact hroom p.1 (List.fst_mem_of_mem_zipIdx hp) hkind

include hroom hchosen

/-- A misplaced event stands above the limit before and after it is moved. -/
theorem lt_row_move_iff {p : Element × ℕ} (hp : p ∈ elements.zipIdx)
    (hkind : p.1.isKind .event = true) {row : Int32} (hrow : row ≤ -2) :
    row < (move elements chosen p).row ↔ row < p.1.row := by
  rw [move]
  split
  · rename_i h
    obtain ⟨kind, hkind', hband⟩ :=
      (isMisplaced_iff hroom).1 (isMisplaced_of_mem_chosen hchosen hp h)
    obtain rfl : kind = .event := Option.some.inj (hkind'.symm.trans (beq_iff_eq.1 hkind))
    have hhigh : ¬p.1.row ≤ -1 := of_decide_eq_false hband
    rw [Element.row_atRow, expectedRow_of_isKind_event hkind]
    grind
  · rfl

theorem externalEventLimit_repaired :
    externalEventLimit (repaired chosen elements) = externalEventLimit elements := by
  have hle (row : Int32) : row ≤ externalEventLimit (repaired chosen elements) ↔
      row ≤ externalEventLimit elements := by
    rw [le_externalEventLimit_iff hroom, le_externalEventLimit_iff (hasRoomBelow_repaired hroom),
      repaired, List.forall_mem_map]
    refine and_congr_right fun hrow => ?_
    have hpositions : (∀ e ∈ elements, e.isKind .event = true → row < e.row) ↔
        ∀ p ∈ elements.zipIdx, p.1.isKind .event = true → row < p.1.row := by
      conv_lhs => rw [← List.zipIdx_map_fst 0 elements, List.forall_mem_map]
    rw [hpositions]
    refine forall₂_congr fun p hp => ?_
    rw [isKind_move]
    exact forall_congr' fun hevent => lt_row_move_iff hroom hchosen hp hevent hrow
  exact Int32.le_antisymm ((hle _).1 (Int32.le_refl _)) ((hle _).2 (Int32.le_refl _))

/-- Moving the elements at some positions takes away the reports on them and changes no other. -/
theorem rowWarningsAt_repaired :
    rowWarningsAt (repaired chosen elements) =
      (rowWarningsAt elements).filter fun r => r.1 ∉ chosen := by
  rw [rowWarningsAt_eq hroom, rowWarningsAt_eq (hasRoomBelow_repaired hroom),
    externalEventLimit_repaired hroom hchosen, repaired, zipIdx_map_zipIdx, List.filterMap_map,
    List.filter_filterMap]
  refine List.filterMap_congr fun p _ => ?_
  rw [Function.comp_apply]
  dsimp only
  by_cases h : p.2 ∈ chosen
  · rw [move, if_pos h, rowWarning?_of_not_isMisplaced hroom (not_isMisplaced_atRow hroom p.1)]
    cases rowWarning? (externalEventLimit elements) p.1 <;> simp [Option.filter_some, h]
  · rw [move, if_neg h]
    cases rowWarning? (externalEventLimit elements) p.1 <;> simp [Option.filter_some, h]

theorem misplacedAt_repaired :
    misplacedAt (repaired chosen elements) = (misplacedAt elements).filter (· ∉ chosen) := by
  rw [← map_fst_rowWarningsAt (hasRoomBelow_repaired hroom), rowWarningsAt_repaired hroom hchosen,
    ← map_fst_rowWarningsAt hroom, List.filter_map]
  rfl

theorem rowWarnings_repaired :
    rowWarnings (repaired chosen elements) =
      ((rowWarningsAt elements).filter fun r => r.1 ∉ chosen).map Prod.snd := by
  rw [← map_snd_rowWarningsAt (hasRoomBelow_repaired hroom), rowWarningsAt_repaired hroom hchosen]

theorem expectedRow_repaired (e : Element) :
    expectedRow (repaired chosen elements) e = expectedRow elements e := by
  rw [expectedRow, expectedRow, externalEventLimit_repaired hroom hchosen]

end Repairs

/-- What becomes of elements and of the reports on them when those at some positions are moved: they
stand in the rows expected of them, no other element is touched, and what is still reported is what
was reported on the others, with the same rows expected. -/
structure IsMended (elements : List Element) (chosen : Finset ℕ) (mended : List Element) :
    Prop where
  moved : ∀ i ∈ chosen, ∃ e e', elements[i]? = some e ∧ mended[i]? = some e' ∧
    e'.row = expectedRow elements e ∧ e' = { e with cell := ⟨e'.cell.row, e.cell.column⟩ }
  unmoved : ∀ i ∉ chosen, mended[i]? = elements[i]?
  misplaced : misplacedAt mended = (misplacedAt elements).filter (· ∉ chosen)
  warnings : rowWarnings mended =
    ((rowWarningsAt elements).filter fun r => r.1 ∉ chosen).map Prod.snd
  expected : expectedRow mended = expectedRow elements

theorem isMended_repaired {elements : List Element} {chosen : Finset ℕ}
    (hroom : HasRoomBelow elements) (hchosen : ∀ i ∈ chosen, i ∈ misplacedAt elements) :
    IsMended elements chosen (repaired chosen elements) := by
  refine ⟨?_, ?_, misplacedAt_repaired hroom hchosen, rowWarnings_repaired hroom hchosen,
    funext (expectedRow_repaired hroom hchosen)⟩
  · intro i hi
    obtain ⟨e, he, -⟩ := mem_misplacedAt.1 (hchosen i hi)
    refine ⟨e, e.atRow (expectedRow elements e), he, ?_, rfl, rfl⟩
    rw [getElem?_repaired, he, Option.map_some, move, if_pos hi]
  · intro i hi
    have hmove : (fun e => move elements chosen (e, i)) = id := funext fun e => if_neg hi
    rw [getElem?_repaired, hmove, Option.map_id_apply]

/-- **Misplaced elements can be moved in any selection.**  Where no event stands in the lowest row,
the check of bands reports the elements of unrecognized kind and the misplaced ones, in the order of
their declaration, and names a row for each of the latter.  Moving any of them to their rows leaves
the reports on all others as they are, and moving all leaves none. -/
theorem repairs_are_independent (elements : List Element)
    (hlowest : ∀ e ∈ elements, e.isKind .event = true → e.cell.row ≠ Int32.minValue) :
    List.Forall₂ (Reports elements)
        (elements.filter fun e => e.kind? = none ∨ IsMisplaced elements e)
        ((rowViolations elements).map Violation.diagnostic) ∧
      List.Forall₂
        (fun i d => ∃ e, elements[i]? = some e ∧ AsksToMove e (expectedRow elements e) d)
        (misplacedAt elements) (rowWarnings elements) ∧
      (∀ chosen : Finset ℕ, (∀ i ∈ chosen, i ∈ misplacedAt elements) →
        IsMended elements chosen (repaired chosen elements)) ∧
      rowWarnings (repaired (misplacedAt elements).toFinset elements) = [] := by
  have hroom : HasRoomBelow elements := hlowest
  refine ⟨reports_rowViolations hroom, asksToMove_rowWarnings hroom,
    fun _ => isMended_repaired hroom, ?_⟩
  have hall : ∀ i ∈ (misplacedAt elements).toFinset, i ∈ misplacedAt elements :=
    fun _ => List.mem_toFinset.1
  rw [rowWarnings_repaired hroom hall, List.map_eq_nil_iff, List.filter_eq_nil_iff]
  intro r hr
  have hposition : r.1 ∈ misplacedAt elements := by
    rw [← map_fst_rowWarningsAt hroom]
    exact List.mem_map_of_mem hr
  simpa using hposition

/-- Two events, one of them too high, an external event between them, and a screen that is too
low. -/
def crooked : List Element :=
  let line (n : Nat) : Line := ⟨n, "", ⟨n, n, Nat.le_refl n⟩⟩
  [{ id := 1, typeName := "Event", name := "A", cell := ⟨2, 1⟩, origin := line 1 },
   { id := 2, typeName := "Event", name := "B", cell := ⟨-5, 2⟩, origin := line 2 },
   { id := 3, typeName := "ExternalEvent", name := "C", cell := ⟨-3, 3⟩, origin := line 3 },
   { id := 4, typeName := "UI", name := "D", cell := ⟨0, 4⟩, origin := line 4 }]

/-- The event and the external event are moved, and the screen is still to be. -/
theorem repairs_are_independent_crooked :
    (∀ e ∈ crooked, e.isKind .event = true → e.cell.row ≠ Int32.minValue) ∧
      (∀ i ∈ ({0, 2} : Finset ℕ), i ∈ misplacedAt crooked) ∧
      IsMended crooked {0, 2} (repaired {0, 2} crooked) ∧
      (repaired {0, 2} crooked).map Element.row = [-1, -5, -6, 0] ∧
      (rowWarnings (repaired {0, 2} crooked)).map (·.help) =
        [some "move the element to row 1"] := by
  have hlowest : ∀ e ∈ crooked, e.isKind .event = true → e.cell.row ≠ Int32.minValue := by
    decide +kernel
  have hchosen : ∀ i ∈ ({0, 2} : Finset ℕ), i ∈ misplacedAt crooked := by decide +kernel
  have hmended := (repairs_are_independent crooked hlowest).2.2.1 {0, 2} hchosen
  refine ⟨hlowest, hchosen, hmended, by decide +kernel, ?_⟩
  rw [hmended.warnings]
  decide +kernel

end Positioning

end EventModel
