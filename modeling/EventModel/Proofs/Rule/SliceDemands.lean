import EventModel.Proofs.Rule.Ordering

/-!
# What slices demand

Each kind of slice demands certain kinds of element in its columns, and only slices that show state
exclude any.  The rule computes with lists of kinds and of roles; here it is compared with what the
columns hold (`isComplete_iff`, `map_name_missingRoles`).  A slice is reported if and only if it is
not complete, and where events are not excluded more elements and more columns do no harm
(`slices_judged`).
-/

namespace EventModel.Composition

/-- An element of the kind stands in the columns of the slice. -/
def Holds (elements : List Element) (s : Slice) (kind : ElementKind) : Prop :=
  ∃ e ∈ elements, e.cell.column ∈ s.columns.toList ∧ e.kind? = some kind

instance (elements : List Element) (s : Slice) (kind : ElementKind) :
    Decidable (Holds elements s kind) :=
  inferInstanceAs (Decidable (∃ e ∈ elements, _))

/-- The slice holds all that its purpose demands and nothing that it excludes. -/
def IsComplete (elements : List Element) (s : Slice) : Prop :=
  match s.kind with
  | .stateChange | .automation =>
    (Holds elements s .screen ∨ Holds elements s .automation) ∧ Holds elements s .command ∧
      Holds elements s .event
  | .viewState => Holds elements s .readModel ∧ ¬Holds elements s .event
  | .external =>
    Holds elements s .externalEvent ∧ Holds elements s .automation ∧ Holds elements s .command ∧
      Holds elements s .event

/-- The places to be filled in a kind of slice, as they are called, with the kinds that fill
them. -/
def places : SliceKind → List (String × List ElementKind)
  | .stateChange | .automation =>
    [("Screen or Automation", [.screen, .automation]), ("Command", [.command]),
     ("Event", [.event])]
  | .viewState => [("ReadModel", [.readModel])]
  | .external =>
    [("ExternalEvent", [.externalEvent]), ("Automation", [.automation]), ("Command", [.command]),
     ("Event", [.event])]

/-- The places of a slice that no element fills. -/
def vacancies (elements : List Element) (s : Slice) : List String :=
  ((places s.kind).filter fun place => ∀ kind ∈ place.2, ¬Holds elements s kind).map Prod.fst

/-! ## Kinds in the columns of a slice -/

theorem mem_kindsIn {elements : List Element} {s : Slice} {kind : ElementKind} :
    kind ∈ kindsIn elements s ↔ Holds elements s kind := by
  rw [kindsIn, List.mem_filterMap]
  simp only [List.mem_filter, ColumnSet.contains, List.contains_eq_mem, decide_eq_true_eq, Holds,
    and_assoc]

/-- The kinds of element that play a role. -/
def players : SliceRole → List ElementKind
  | .trigger => [.screen, .automation]
  | .kind k => [k]

theorem isPlayedBy_iff (r : SliceRole) (k : ElementKind) :
    r.isPlayedBy k = true ↔ k ∈ players r := by
  cases r with
  | trigger => cases k <;> simp [SliceRole.isPlayedBy, ElementKind.isTrigger, players]
  | kind required => simp [SliceRole.isPlayedBy, players]

theorem places_eq (kind : SliceKind) :
    places kind = kind.roles.map fun r => (r.name, players r) := by
  cases kind <;> rfl

theorem map_name_missingRoles (elements : List Element) (s : Slice) :
    (missingRoles s.kind (kindsIn elements s)).map SliceRole.name = vacancies elements s := by
  have hrole (r : SliceRole) : (!(kindsIn elements s).any r.isPlayedBy) =
      decide (∀ kind ∈ players r, ¬Holds elements s kind) := by
    rw [Bool.eq_iff_iff]
    simp only [Bool.not_eq_true', List.any_eq_false, isPlayedBy_iff, mem_kindsIn,
      decide_eq_true_eq]
    exact ⟨fun h kind hplays hholds => h kind hholds hplays,
      fun h kind hholds hplays => h kind hplays hholds⟩
  rw [missingRoles, vacancies, places_eq, List.filter_map, List.map_map]
  simp only [hrole]
  rfl

theorem nodup_vacancies (elements : List Element) (s : Slice) : (vacancies elements s).Nodup := by
  have hplaces (kind : SliceKind) : ((places kind).map Prod.fst).Nodup := by
    cases kind <;> decide
  exact (hplaces s.kind).sublist (List.filter_sublist.map Prod.fst)

/-! ## Complete slices -/

theorem isComplete_iff {elements : List Element} {s : Slice} :
    IsComplete elements s ↔
      ¬(s.kind = .viewState ∧ Holds elements s .event) ∧ vacancies elements s = [] := by
  rw [vacancies, List.map_eq_nil_iff, List.filter_eq_nil_iff, IsComplete]
  cases s.kind with
  | stateChange | automation | external => simp [places]
  | viewState =>
      simp only [places]
      simp [and_comm]

instance (elements : List Element) (s : Slice) : Decidable (IsComplete elements s) :=
  decidable_of_iff' _ isComplete_iff

theorem defect?_eq (elements : List Element) (s : Slice) :
    defect? s.kind (kindsIn elements s) =
      if s.kind = .viewState ∧ Holds elements s .event then some .holdsEvent
      else if vacancies elements s = [] then none
      else some (.lacks (missingRoles s.kind (kindsIn elements s))) := by
  have hexcluded : (s.kind.excludesEvents && (kindsIn elements s).contains .event) = true ↔
      s.kind = .viewState ∧ Holds elements s .event := by
    rw [Bool.and_eq_true, List.contains_eq_mem, decide_eq_true_iff, mem_kindsIn]
    refine and_congr_left fun _ => ?_
    cases s.kind <;> simp [SliceKind.excludesEvents]
  rw [defect?, ← map_name_missingRoles]
  simp only [hexcluded, List.map_eq_nil_iff]
  cases missingRoles s.kind (kindsIn elements s) <;> simp

theorem sliceViolation?_of_isComplete {elements : List Element} {s : Slice}
    (h : IsComplete elements s) : sliceViolation? elements s = none := by
  obtain ⟨hallowed, hfilled⟩ := isComplete_iff.1 h
  rw [sliceViolation?, defect?_eq, if_neg hallowed, if_pos hfilled, Option.map_none]

/-- A report on a slice: it says what is to be moved out, or lists the places that are not
filled. -/
structure ReportsSlice (elements : List Element) (s : Slice) (x : Diagnostic) : Prop where
  code : x.code = .incompleteSlice
  line : x.line = s.origin
  excess : s.kind = .viewState → Holds elements s .event →
    x.help = some "move the events out of the slice's columns"
  lack : ¬(s.kind = .viewState ∧ Holds elements s .event) →
    vacancies elements s ≠ [] ∧ (vacancies elements s).Nodup ∧
      x.help = some ("missing: " ++ ", ".intercalate (vacancies elements s))

theorem sliceViolation?_of_not_isComplete {elements : List Element} {s : Slice}
    (h : ¬IsComplete elements s) :
    ∃ defect, sliceViolation? elements s = some (.sliceDefect s defect) ∧
      ReportsSlice elements s (Violation.sliceDefect s defect).diagnostic := by
  rw [sliceViolation?, defect?_eq]
  by_cases hexcess : s.kind = .viewState ∧ Holds elements s .event
  · rw [if_pos hexcess]
    exact ⟨.holdsEvent, rfl, rfl, rfl, fun _ _ => rfl, fun hallowed => absurd hexcess hallowed⟩
  · have hvacant : vacancies elements s ≠ [] := fun hnil => h (isComplete_iff.2 ⟨hexcess, hnil⟩)
    rw [if_neg hexcess, if_neg hvacant]
    refine ⟨.lacks (missingRoles s.kind (kindsIn elements s)), rfl, rfl, rfl,
      fun hkind hevent => absurd ⟨hkind, hevent⟩ hexcess,
      fun _ => ⟨hvacant, nodup_vacancies elements s, ?_⟩⟩
    rw [← map_name_missingRoles]
    rfl

theorem reports_of_slices (d : Diagram) :
    List.Forall₂ (ReportsSlice d.elements)
      (d.slices.filter fun s => ¬IsComplete d.elements s) (d.reportsUnder .incompleteSlice) := by
  rw [Diagram.reportsUnder_incompleteSlice, violations, List.map_filterMap]
  apply forall₂_filter_filterMap
  · intro s _ h
    obtain ⟨defect, hdefect, hreport⟩ := sliceViolation?_of_not_isComplete (of_decide_eq_true h)
    exact ⟨_, by rw [hdefect, Option.map_some], hreport⟩
  · intro s _ h
    rw [decide_eq_false_iff_not, not_not] at h
    rw [sliceViolation?_of_isComplete h, Option.map_none]

/-! ## More elements and more columns -/

/-- The rule finds fault with the slice. -/
def IsReported (d : Diagram) (s : Slice) : Prop :=
  ∃ defect, .sliceDefect s defect ∈ Rule.slices.violations d

theorem isReported_iff {d : Diagram} {s : Slice} :
    IsReported d s ↔ s ∈ d.slices ∧ ¬IsComplete d.elements s := by
  constructor
  · rintro ⟨defect, hmem⟩
    obtain ⟨t, ht, hviolation⟩ := List.mem_filterMap.1 hmem
    obtain ⟨defect', -, heq⟩ := Option.map_eq_some_iff.1 hviolation
    obtain ⟨rfl, -⟩ := Violation.sliceDefect.inj heq
    refine ⟨ht, fun hcomplete => ?_⟩
    rw [sliceViolation?_of_isComplete hcomplete] at hviolation
    exact absurd hviolation (by simp)
  · rintro ⟨hs, h⟩
    obtain ⟨defect, hdefect, -⟩ := sliceViolation?_of_not_isComplete h
    exact ⟨defect, List.mem_filterMap.2 ⟨s, hs, hdefect⟩⟩

/-- A slice of one diagram is found again in another with more elements, with more columns. -/
structure Grows (d : Diagram) (s : Slice) (d' : Diagram) (s' : Slice) : Prop where
  mem : s ∈ d.slices
  mem' : s' ∈ d'.slices
  kind : s'.kind = s.kind
  elements : d.elements ⊆ d'.elements
  columns : s.columns.toList ⊆ s'.columns.toList

theorem Grows.holds {d d' : Diagram} {s s' : Slice} (h : Grows d s d' s') {kind : ElementKind}
    (hkind : Holds d.elements s kind) : Holds d'.elements s' kind := by
  obtain ⟨e, he, hcolumn, hkind⟩ := hkind
  exact ⟨e, h.elements he, h.columns hcolumn, hkind⟩

theorem Grows.isComplete {d d' : Diagram} {s s' : Slice} (h : Grows d s d' s')
    (hkind : s.kind ≠ .viewState) (hcomplete : IsComplete d.elements s) :
    IsComplete d'.elements s' := by
  rw [IsComplete] at hcomplete ⊢
  rw [h.kind]
  cases hs : s.kind with
  | stateChange | automation =>
      rw [hs] at hcomplete
      obtain ⟨htrigger, hcommand, hevent⟩ := hcomplete
      exact ⟨htrigger.imp h.holds h.holds, h.holds hcommand, h.holds hevent⟩
  | viewState => exact absurd hs hkind
  | external =>
      rw [hs] at hcomplete
      obtain ⟨hexternal, hautomation, hcommand, hevent⟩ := hcomplete
      exact ⟨h.holds hexternal, h.holds hautomation, h.holds hcommand, h.holds hevent⟩

/-- **A slice is reported if and only if it is not complete.**  Reports on slices come in the order
of the slices, one on each that is not complete, and list what is missing, each place once.  A
complete slice that does not show state stays complete with more elements and more columns; a slice
that shows state and holds an event stays reported. -/
theorem slices_judged :
    (∀ d : Diagram,
      List.Forall₂ (ReportsSlice d.elements)
          (d.slices.filter fun s => ¬IsComplete d.elements s) (d.reportsUnder .incompleteSlice) ∧
        ∀ s, IsReported d s ↔ s ∈ d.slices ∧ ¬IsComplete d.elements s) ∧
      ∀ (d d' : Diagram) (s s' : Slice), Grows d s d' s' →
        (s.kind ≠ .viewState → ¬IsReported d s → ¬IsReported d' s') ∧
          (s.kind = .viewState → Holds d.elements s .event → IsReported d' s') := by
  refine ⟨fun d => ⟨reports_of_slices d, fun s => isReported_iff⟩, fun d d' s s' h => ⟨?_, ?_⟩⟩
  · intro hkind hnone hreported
    rw [isReported_iff, not_and, not_not] at hnone
    exact (isReported_iff.1 hreported).2 (h.isComplete hkind (hnone h.mem))
  · intro hkind hevent
    refine isReported_iff.2 ⟨h.mem', fun hcomplete => ?_⟩
    exact (isComplete_iff.1 hcomplete).1 ⟨h.kind.trans hkind, h.holds hevent⟩

/-- A slice that changes state, over some columns. -/
def changing (columns : List Int32) : Slice :=
  ⟨.stateChange, "S", .ofList columns, ⟨4, "", ⟨4, 4, Nat.le_refl 4⟩⟩⟩

/-- A slice that shows state, over some columns. -/
def showing (columns : List Int32) : Slice :=
  ⟨.viewState, "V", .ofList columns, ⟨5, "", ⟨5, 5, Nat.le_refl 5⟩⟩⟩

/-- One slice holds what it demands, and the other an event. -/
def drafted : Diagram :=
  let line (n : Nat) : Line := ⟨n, "", ⟨n, n, Nat.le_refl n⟩⟩
  { elements :=
      [{ id := 1, typeName := "UI", name := "A", cell := ⟨1, 0⟩, origin := line 1 },
       { id := 2, typeName := "Command", name := "B", cell := ⟨0, 0⟩, origin := line 2 },
       { id := 3, typeName := "Event", name := "C", cell := ⟨-1, 2⟩, origin := line 3 }]
    slices := [changing [0, 2], showing [2]] }

/-- There is a read model in the column between, which both slices take in. -/
def grown : Diagram :=
  let line (n : Nat) : Line := ⟨n, "", ⟨n, n, Nat.le_refl n⟩⟩
  { elements :=
      { id := 4, typeName := "Read_Model", name := "D", cell := ⟨0, 1⟩, origin := line 6 } ::
        drafted.elements
    slices := [changing [2, 1, 0], showing [1, 2]] }

theorem slices_judged_grown :
    (Grows drafted (changing [0, 2]) grown (changing [2, 1, 0]) ∧
      ¬IsReported drafted (changing [0, 2]) ∧ ¬IsReported grown (changing [2, 1, 0])) ∧
    Grows drafted (showing [2]) grown (showing [1, 2]) ∧
      Holds drafted.elements (showing [2]) .event ∧ IsReported grown (showing [1, 2]) := by
  have helements : drafted.elements ⊆ grown.elements := List.subset_cons_self _ _
  have hchanging : Grows drafted (changing [0, 2]) grown (changing [2, 1, 0]) :=
    ⟨by decide +kernel, by decide +kernel, rfl, helements, by decide +kernel⟩
  have hshowing : Grows drafted (showing [2]) grown (showing [1, 2]) :=
    ⟨by decide +kernel, by decide +kernel, rfl, helements, by decide +kernel⟩
  have hnone : ¬IsReported drafted (changing [0, 2]) := by
    rw [isReported_iff]
    decide +kernel
  have hevent : Holds drafted.elements (showing [2]) .event := by decide +kernel
  refine ⟨⟨hchanging, hnone, ?_⟩, hshowing, hevent, ?_⟩
  · exact (slices_judged.2 _ _ _ _ hchanging).1 (by decide) hnone
  · exact (slices_judged.2 _ _ _ _ hshowing).2 rfl hevent

end EventModel.Composition
