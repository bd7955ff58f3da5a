import EventModel.Proofs.Rule.Ordering
import Mathlib.Data.List.Nodup
import Mathlib.Data.List.Perm.Basic
import Mathlib.Data.List.Sort

/-!
# Gaps in branches

A branch has a gap if a column between its outermost events holds none of them.  The check looks at
neighbours in sorted order only, and this comes to the same (`isChain_iff`) unless events are so far
apart that their distance is no number of 32 bits (`noGap_iff`).  Of all flows it follows those that
lead forward from a command to an event, and how many lead to one event does not matter
(`branch_perm_targets`).  So each event of a branch with a gap is reported once for its command, and
nothing else is (`branchGaps_reported`).
-/

namespace EventModel.Positioning

/-! ## Columns -/

/-- Some column between the smallest and the largest is missing. -/
def HasHole (columns : List Int) : Prop :=
  ∃ column, (∃ low ∈ columns, low < column) ∧ (∃ high ∈ columns, column < high) ∧
    column ∉ columns

theorem hasHole_iff_of_perm {as bs : List Int} (h : as.Perm bs) : HasHole as ↔ HasHole bs := by
  unfold HasHole
  simp only [h.mem_iff]

theorem one_lt_length_of_hasHole {columns : List Int} (h : HasHole columns) :
    1 < columns.length := by
  obtain ⟨column, ⟨low, hlow, hlt⟩, ⟨high, hhigh, hgt⟩, -⟩ := h
  exact one_lt_length_of_ne hlow hhigh (by omega)

/-- The first hole in ascending columns lies between the first two of them or further on. -/
theorem hasHole_cons_cons {a b : Int} {rest : List Int} (h : (a :: b :: rest).Pairwise (· ≤ ·)) :
    HasHole (a :: b :: rest) ↔ 1 < b - a ∨ HasHole (b :: rest) := by
  obtain ⟨hfirst, hrest⟩ := List.pairwise_cons.1 h
  have hb : ∀ c ∈ b :: rest, b ≤ c :=
    List.forall_mem_cons.2 ⟨Int.le_refl b, (List.pairwise_cons.1 hrest).1⟩
  constructor
  · rintro ⟨column, ⟨low, hlow, hlt⟩, ⟨high, hhigh, hgt⟩, hnew⟩
    rw [List.mem_cons, not_or] at hnew
    have hlow : a ≤ low := by
      rcases List.mem_cons.1 hlow with rfl | hlow
      · exact Int.le_refl low
      · exact hfirst low hlow
    -- the free column is in front of `b`, or it is free among the columns from `b` on
    rcases Int.lt_trichotomy column b with hcolumn | rfl | hcolumn
    · left
      omega
    · exact absurd List.mem_cons_self hnew.2
    · have hhigh : high ∈ b :: rest := by
        rcases List.mem_cons.1 hhigh with rfl | hhigh
        · omega
        · exact hhigh
      exact Or.inr ⟨column, ⟨b, List.mem_cons_self, hcolumn⟩, ⟨high, hhigh, hgt⟩, hnew.2⟩
  · rintro (hfar | ⟨column, ⟨low, hlow, hlt⟩, ⟨high, hhigh, hgt⟩, hnew⟩)
    · refine ⟨a + 1, ⟨a, List.mem_cons_self, by omega⟩,
        ⟨b, List.mem_cons_of_mem a List.mem_cons_self, by omega⟩, fun hmem => ?_⟩
      rcases List.mem_cons.1 hmem with heq | hmem
      · omega
      · have hle := hb (a + 1) hmem
        omega
    · refine ⟨column, ⟨low, List.mem_cons_of_mem a hlow, hlt⟩,
        ⟨high, List.mem_cons_of_mem a hhigh, hgt⟩, fun hmem => ?_⟩
      rcases List.mem_cons.1 hmem with heq | hmem
      · have hle := hfirst low hlow
        omega
      · exact hnew hmem

/-- In ascending columns it is enough to compare neighbours. -/
theorem isChain_iff {columns : List Int} (h : columns.Pairwise (· ≤ ·)) :
    columns.IsChain (fun a b => b - a ≤ 1) ↔ ¬HasHole columns := by
  induction columns with
  | nil => simp [HasHole]
  | cons a rest ih =>
      cases rest with
      | nil =>
          refine iff_of_true (.singleton a) ?_
          rintro ⟨column, ⟨low, hlow, hlt⟩, ⟨high, hhigh, hgt⟩, -⟩
          rw [List.mem_singleton] at hlow hhigh
          omega
      | cons b rest =>
          rw [List.isChain_cons_cons, ih (List.pairwise_cons.1 h).2, hasHole_cons_cons h, not_or,
            Int.not_lt]

instance (columns : List Int) : Decidable (HasHole columns) :=
  decidable_of_iff (¬(columns.insertionSort (· ≤ ·)).IsChain fun a b => b - a ≤ 1) <| by
    have hsorted : (columns.insertionSort (· ≤ ·)).Pairwise (· ≤ ·) :=
      columns.pairwise_insertionSort (· ≤ ·)
    rw [isChain_iff hsorted, not_not, hasHole_iff_of_perm (columns.perm_insertionSort (· ≤ ·))]

/-! ## Columns of 32 bits -/

/-- No two columns are so far apart that their difference wraps around. -/
def IsNarrow (columns : List Int) : Prop :=
  ∀ a ∈ columns, ∀ b ∈ columns, b - a ≤ 2147483647

instance : DecidablePred IsNarrow := fun columns =>
  inferInstanceAs (Decidable (∀ a ∈ columns, ∀ b ∈ columns, b - a ≤ 2147483647))

theorem isNarrow_of_subset {as bs : List Int} (h : as ⊆ bs) (hnarrow : IsNarrow bs) :
    IsNarrow as :=
  fun a ha b hb => hnarrow a (h ha) b (h hb)

theorem sub_le_one_iff {a b : Int32} (hle : a ≤ b) (hnear : (b : Int) - a ≤ 2147483647) :
    b - a ≤ 1 ↔ (b : Int) - a ≤ 1 := by
  rw [Int32.le_iff_toInt_le] at hle
  have hdiff : (b - a).toInt = (b : Int) - a := by
    rw [Int32.toInt_sub]
    exact Int.bmod_eq_of_le (by omega) (by omega)
  rw [Int32.le_iff_toInt_le, hdiff]
  rfl

theorem noGap_iff_isChain {columns : List Int32} (h : columns.Pairwise (· ≤ ·))
    (hnarrow : IsNarrow (columns.map Int32.toInt)) :
    noGap columns = true ↔ (columns.map Int32.toInt).IsChain fun a b => b - a ≤ 1 := by
  induction columns with
  | nil => exact iff_of_true rfl .nil
  | cons a rest ih =>
      cases rest with
      | nil => exact iff_of_true rfl (.singleton _)
      | cons b rest =>
          obtain ⟨hfirst, hrest⟩ := List.pairwise_cons.1 h
          rw [List.map_cons] at hnarrow
          have hnear : (b : Int) - a ≤ 2147483647 :=
            hnarrow a List.mem_cons_self b (List.mem_cons_of_mem _ List.mem_cons_self)
          have hnarrow' := isNarrow_of_subset (List.subset_cons_self _ _) hnarrow
          rw [noGap, Bool.and_eq_true, decide_eq_true_iff, ih hrest hnarrow',
            sub_le_one_iff (hfirst b List.mem_cons_self) hnear]
          simp only [List.map_cons, List.isChain_cons_cons]

theorem noGap_iff {columns : List Int32} (h : columns.Pairwise (· ≤ ·))
    (hnarrow : IsNarrow (columns.map Int32.toInt)) :
    noGap columns = true ↔ ¬HasHole (columns.map Int32.toInt) := by
  rw [noGap_iff_isChain h hnarrow, isChain_iff]
  exact List.pairwise_map.2 (h.imp Int32.le_iff_toInt_le.1)

theorem pairwise_mergeSort (columns : List Int32) : columns.mergeSort.Pairwise (· ≤ ·) := by
  rw [List.mergeSort_eq_insertionSort (· ≤ ·)]
  exact columns.pairwise_insertionSort (· ≤ ·)

theorem areConsecutive_iff {events : List Element}
    (hnarrow : IsNarrow (events.map fun e => (e.column : Int))) :
    areConsecutive events = true ↔ ¬HasHole (events.map fun e => (e.column : Int)) := by
  have hperm : ((events.map Element.column).mergeSort.map Int32.toInt).Perm
      (events.map fun e => (e.column : Int)) := by
    have hsorted := List.mergeSort_perm (events.map Element.column) fun a b => a ≤ b
    exact (hsorted.map Int32.toInt).trans (List.Perm.of_eq List.map_map)
  rw [areConsecutive, ← hasHole_iff_of_perm hperm]
  exact noGap_iff (pairwise_mergeSort _) (isNarrow_of_subset hperm.subset hnarrow)

/-- Sorting forgets the order of events, however far they are apart. -/
theorem areConsecutive_eq_of_perm {events events' : List Element} (h : events.Perm events') :
    areConsecutive events = areConsecutive events' := by
  have hsorted :
      (events.map Element.column).mergeSort = (events'.map Element.column).mergeSort := by
    refine List.Perm.eq_of_pairwise (fun _ _ _ _ => Int32.le_antisymm) (pairwise_mergeSort _)
      (pairwise_mergeSort _) ?_
    exact (List.mergeSort_perm _ _).trans ((h.map _).trans (List.mergeSort_perm _ _).symm)
  rw [areConsecutive, areConsecutive, hsorted]

/-! ## Events of a command -/

/-- The element is an event, and some flow leads forward from the command to it. -/
def LeadsTo (d : Diagram) (command event : Element) : Prop :=
  event.kind? = some .event ∧
    ∃ f ∈ d.flows, f.direction = .forward ∧ f.source = command.id ∧ f.target = event.id

instance (d : Diagram) (command event : Element) : Decidable (LeadsTo d command event) :=
  inferInstanceAs (Decidable (_ ∧ _))

/-- The events of a command, in the order of their declaration. -/
def targets (d : Diagram) (command : Element) : List Element :=
  d.elements.filter fun e => LeadsTo d command e

/-- A flow adds nothing to what commands lead to if it leads back, or to no event, or if another
flow leads forward between the same ids. -/
def IsIdle (d : Diagram) (f : Flow) : Prop :=
  f.direction = .backward ∨ (∀ e ∈ d.elements, e.id = f.target → e.kind? ≠ some .event) ∨
    ∃ g ∈ d.flows, g.direction = .forward ∧ g.source = f.source ∧ g.target = f.target

theorem targets_of_isIdle {d : Diagram} {before after : List Flow} {f : Flow}
    (hflows : d.flows = before ++ after) (hidle : IsIdle d f) (command : Element) :
    targets { d with flows := before ++ f :: after } command = targets d command := by
  apply List.filter_congr
  intro e he
  rw [decide_eq_decide]
  refine and_congr_right fun hkind => ?_
  constructor
  · rintro ⟨g, hg, hforward, hsource, htarget⟩
    rcases List.mem_append.1 hg with hg | hg
    · exact ⟨g, hflows ▸ List.mem_append_left after hg, hforward, hsource, htarget⟩
    · rcases List.mem_cons.1 hg with rfl | hg
      · rcases hidle with hback | hnone | ⟨twin, htwin, hforward', hsource', htarget'⟩
        · rw [hforward] at hback
          exact absurd hback (by decide)
        · exact absurd hkind (hnone e he htarget.symm)
        · exact ⟨twin, htwin, hforward', hsource'.trans hsource, htarget'.trans htarget⟩
      · exact ⟨g, hflows ▸ List.mem_append_right before hg, hforward, hsource, htarget⟩
  · rintro ⟨g, hg, hends⟩
    refine ⟨g, ?_, hends⟩
    rw [hflows, List.mem_append] at hg
    exact List.mem_append.2 (hg.imp_right (List.mem_cons_of_mem f))

section Targets

variable {d : Diagram} (hid : (d.elements.map Element.id).Nodup)

include hid

theorem branchEvent?_eq_some_iff {command event : Element} {f : Flow} :
    branchEvent? d command f = some event ↔
      event ∈ d.elements ∧ event.kind? = some .event ∧
        f.direction = .forward ∧ f.source = command.id ∧ f.target = event.id := by
  have hkey : ∀ a ∈ d.elements, ∀ b ∈ d.elements, a.id = b.id → a = b :=
    fun a ha b hb => List.inj_on_of_nodup_map hid ha hb
  rw [branchEvent?, Diagram.get?_byId]
  split
  · rename_i hforward
    rw [Option.filter_eq_some_iff, Diagram.element?, find?_key_eq_some_iff hkey, Element.isKind,
      beq_iff_eq]
    grind
  · rename_i hother
    simp only [reduceCtorEq, false_iff]
    rintro ⟨-, -, hdirection, hsource, -⟩
    exact hother ⟨hdirection, hsource⟩

theorem branch_perm_targets (command : Element) :
    (branch d command).Perm (targets d command) := by
  have hbranch : (branch d command).Nodup :=
    (pairwise_id_branch d command).imp fun hne heq => hne (by rw [heq])
  have htargets : (targets d command).Nodup := hid.of_map.filter _
  rw [List.perm_ext_iff_of_nodup hbranch htargets]
  intro event
  rw [mem_branch, targets, List.mem_filter, decide_eq_true_iff, LeadsTo]
  simp only [branchEvent?_eq_some_iff hid]
  grind

end Targets

/-! ## Reports -/

/-- What is reported on an event that stands apart from the other events of a command. -/
def gapReport (command event : Element) : Diagnostic where
  code := .branchGap
  line := event.origin
  message := s!"Element {quoteName event.name} should be positioned in consecutive columns with " ++
    s!"the other events of command {quoteName command.name}"
  labels := [.secondary command.origin.span "command declared here"]

/-- The reports that a command gives rise to. -/
def gapReports (d : Diagram) (command : Element) : List Diagnostic :=
  if 1 < (targets d command).length ∧
      HasHole ((targets d command).map fun e => (e.column : Int)) then
    (targets d command).map (gapReport command)
  else []

/-- The same reports, as the check of neighbours finds them. -/
def branchReports (d : Diagram) (command : Element) : List Diagnostic :=
  if areConsecutive (targets d command) then [] else (targets d command).map (gapReport command)

theorem branchReports_eq {d : Diagram} {command : Element}
    (hnarrow : IsNarrow ((targets d command).map fun e => (e.column : Int))) :
    branchReports d command = gapReports d command := by
  have hgap := areConsecutive_iff hnarrow
  unfold branchReports gapReports
  by_cases h : HasHole ((targets d command).map fun e => (e.column : Int))
  · have hmany := one_lt_length_of_hasHole h
    rw [List.length_map] at hmany
    rw [if_neg (fun hnone => hgap.1 hnone h), if_pos ⟨hmany, h⟩]
  · rw [if_pos (hgap.2 h), if_neg (fun hboth => h hboth.2)]

section Reports

variable {d : Diagram} (hid : (d.elements.map Element.id).Nodup)

include hid

theorem branchViolations_perm (command : Element) :
    ((branchViolations d command).map Violation.diagnostic).Perm (branchReports d command) := by
  have hperm := branch_perm_targets hid command
  unfold branchViolations branchReports
  simp only [areConsecutive_eq_of_perm hperm]
  split
  · exact .nil
  · rw [List.map_map]
    exact hperm.map (gapReport command)

theorem reportsUnder_branchGap_perm :
    (d.reportsUnder .branchGap).Perm
      ((d.elements.filter (·.isKind .command)).flatMap (branchReports d)) := by
  rw [Diagram.reportsUnder_branchGap, branchGaps, List.map_flatMap]
  exact (List.Perm.refl _).flatMap fun command _ => branchViolations_perm hid command

end Reports

/-- **Every event of a branch with a gap is reported once.**  If no id is used twice, what is
reported on gaps is, for each command whose events leave a column free between them, one report on
each of these events that names the command and points to its line.  For this, no two events of a
command may be so far apart that their distance is no number of 32 bits.  A flow that leads back, or
to no event, or where another leads already, changes nothing. -/
theorem branchGaps_reported {d : Diagram} (hid : (d.elements.map Element.id).Nodup) :
    ((∀ command ∈ d.elements, command.isKind .command = true →
        IsNarrow ((targets d command).map fun e => (e.column : Int))) →
      (d.reportsUnder .branchGap).Perm
        ((d.elements.filter (·.isKind .command)).flatMap (gapReports d))) ∧
      ∀ before after f, d.flows = before ++ after → IsIdle d f →
        (({ d with flows := before ++ f :: after } : Diagram).reportsUnder .branchGap).Perm
          (d.reportsUnder .branchGap) := by
  refine ⟨fun hnarrow => ?_, fun before after f hflows hidle => ?_⟩
  · refine (reportsUnder_branchGap_perm hid).trans (List.Perm.of_eq ?_)
    refine List.flatMap_congr fun command hcommand => ?_
    rw [List.mem_filter] at hcommand
    exact branchReports_eq (hnarrow command hcommand.1 hcommand.2)
  · have hmore := reportsUnder_branchGap_perm (d := { d with flows := before ++ f :: after }) hid
    have hreports : branchReports { d with flows := before ++ f :: after } = branchReports d := by
      funext command
      rw [branchReports, branchReports, targets_of_isIdle hflows hidle]
    rw [hreports] at hmore
    exact hmore.trans (reportsUnder_branchGap_perm hid).symm

/-- Two commands, each with three events; those of the first leave a column free between them. -/
def spread : Diagram :=
  let line (n : Nat) : Line := ⟨n, "", ⟨n, n, Nat.le_refl n⟩⟩
  { elements :=
      [{ id := 1, typeName := "Command", name := "A", cell := ⟨0, 0⟩, origin := line 1 },
       { id := 2, typeName := "Event", name := "B", cell := ⟨-1, 1⟩, origin := line 2 },
       { id := 3, typeName := "Event", name := "C", cell := ⟨-1, -1⟩, origin := line 3 },
       { id := 4, typeName := "Event", name := "D", cell := ⟨-2, 1⟩, origin := line 4 },
       { id := 5, typeName := "Event", name := "E", cell := ⟨-1, 0⟩, origin := line 5 },
       { id := 6, typeName := "command", name := "F", cell := ⟨0, 5⟩, origin := line 6 }]
    flows :=
      [⟨1, 4, .forward, line 7⟩, ⟨1, 2, .forward, line 8⟩, ⟨1, 3, .forward, line 9⟩,
       ⟨6, 3, .forward, line 10⟩, ⟨6, 5, .forward, line 11⟩, ⟨6, 2, .forward, line 12⟩] }

/-- A flow back to an event in the free column. -/
def returning : Flow := ⟨1, 5, .backward, ⟨13, "", ⟨13, 13, Nat.le_refl 13⟩⟩⟩

theorem branchGaps_reported_spread :
    (spread.elements.map Element.id).Nodup ∧
      (∀ command ∈ spread.elements, command.isKind .command = true →
        IsNarrow ((targets spread command).map fun e => (e.column : Int))) ∧
      IsIdle spread returning ∧
      ((spread.reportsUnder .branchGap).map fun x => (x.line.number, x.labels.length)).Perm
        [(2, 1), (3, 1), (4, 1)] ∧
      (({ spread with flows := returning :: spread.flows } : Diagram).reportsUnder
        .branchGap).Perm (spread.reportsUnder .branchGap) := by
  have hid : (spread.elements.map Element.id).Nodup := by decide +kernel
  have hnarrow : ∀ command ∈ spread.elements, command.isKind .command = true →
      IsNarrow ((targets spread command).map fun e => (e.column : Int)) := by decide +kernel
  have hidle : IsIdle spread returning := Or.inl rfl
  obtain ⟨hreports, hmore⟩ := branchGaps_reported hid
  refine ⟨hid, hnarrow, hidle, ?_, hmore [] spread.flows returning rfl hidle⟩
  refine ((hreports hnarrow).map fun x => (x.line.number, x.labels.length)).trans ?_
  exact List.Perm.of_eq (by decide +kernel)

end EventModel.Positioning
