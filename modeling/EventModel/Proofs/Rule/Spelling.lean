import EventModel.Proofs.Connection.Agreement
import EventModel.Proofs.Rule.Relabeling

/-!
# The spelling of types

A type can be spelt in many ways.  Which kind a text names is a matter of its normal form
(`ElementKind.ofText?_eq_some_iff`), and a text that names a kind is not seen again behind it:
elements whose recognized types are spelt differently have the same canonical form, and what is
found in a diagram is worded as it is for the canonical form (`Rule.diagnostics_canonical`).  So a
diagram may be respelt at will (`reports_of_isRespelt`).
-/

namespace EventModel

/-! ## Texts -/

namespace ElementKind

/-- A text is a spelling of a kind when it agrees with the name of the kind but for underscores,
white space and case, or agrees in this way with `UI`, the other name of screens. -/
def IsNamedBy (kind : ElementKind) (text : String) : Prop :=
  normalize text.toList = normalize kind.name.toList ∨
    kind = screen ∧ normalize text.toList = "ui".toList

/-- A text agrees with another but for underscores, white space and case, or one of them is a
spelling of `Screen` and the other of `UI`. -/
def IsRespelling (text text' : String) : Prop :=
  normalize text'.toList = normalize text.toList ∨
    screen.IsNamedBy text ∧ screen.IsNamedBy text'

instance (kind : ElementKind) : DecidablePred kind.IsNamedBy := fun text =>
  inferInstanceAs (Decidable (normalize text.toList = normalize kind.name.toList ∨
    kind = screen ∧ normalize text.toList = "ui".toList))

instance (text text' : String) : Decidable (IsRespelling text text') :=
  inferInstanceAs (Decidable (_ ∨ _))

theorem mem_spellings_iff {kind : ElementKind} {text : String} :
    String.ofList (normalize text.toList) ∈ kind.spellings ↔ kind.IsNamedBy text := by
  have hname : normalize kind.name.toList = (kind.spellings.headD "").toList := by
    cases kind <;> decide +kernel
  rw [IsNamedBy, hname]
  cases kind <;> simp [spellings, ← String.toList_inj]

theorem IsNamedBy.unique {kind kind' : ElementKind} {text : String} (h : kind.IsNamedBy text)
    (h' : kind'.IsNamedBy text) : kind = kind' :=
  spellings_disjoint (mem_spellings_iff.2 h) (mem_spellings_iff.2 h')

theorem IsNamedBy.of_ofText? {kind : ElementKind} {text : String} (h : ofText? text = some kind) :
    kind.IsNamedBy text := by
  have hfound := List.find?_some (p := fun kind : ElementKind =>
    kind.spellings.contains (String.ofList (normalize text.toList))) h
  exact mem_spellings_iff.1 (List.contains_iff_mem.1 hfound)

/-- The kinds are tried in turn, but no text would do for two of them. -/
theorem ofText?_eq_some_iff {text : String} {kind : ElementKind} :
    ofText? text = some kind ↔ kind.IsNamedBy text := by
  refine ⟨IsNamedBy.of_ofText?, fun h => ?_⟩
  have hall : kind ∈ all := by cases kind <;> decide
  have hsome : (ofText? text).isSome = true := by
    rw [ofText?, List.find?_isSome]
    exact ⟨kind, hall, List.contains_iff_mem.2 (mem_spellings_iff.2 h)⟩
  obtain ⟨kind', hkind'⟩ := Option.isSome_iff_exists.1 hsome
  rw [hkind', (IsNamedBy.of_ofText? hkind').unique h]

@[simp] theorem ofText?_name (kind : ElementKind) : ofText? kind.name = some kind :=
  ofText?_eq_some_iff.2 (Or.inl rfl)

theorem IsRespelling.ofText?_eq {text text' : String} (h : IsRespelling text text') :
    ofText? text' = ofText? text := by
  rcases h with hnormal | ⟨htext, htext'⟩
  · rw [ofText?, ofText?, hnormal]
  · rw [ofText?_eq_some_iff.2 htext, ofText?_eq_some_iff.2 htext']

end ElementKind

/-! ## Canonical forms -/

namespace Element

/-- The element with its type as messages call it. -/
def canonical (e : Element) : Element := { e with typeName := e.typeLabel }

@[simp] theorem id_canonical (e : Element) : e.canonical.id = e.id := by simp only [canonical]

@[simp] theorem name_canonical (e : Element) : e.canonical.name = e.name := by
  simp only [canonical]

@[simp] theorem cell_canonical (e : Element) : e.canonical.cell = e.cell := by
  simp only [canonical]

@[simp] theorem origin_canonical (e : Element) : e.canonical.origin = e.origin := by
  simp only [canonical]

@[simp] theorem typeName_canonical (e : Element) : e.canonical.typeName = e.typeLabel := by
  simp only [canonical]

theorem kind?_canonical (e : Element) : e.canonical.kind? = e.kind? := by
  rw [kind?, canonical, typeLabel]
  cases hkind : e.kind? with
  | none => exact hkind
  | some kind => exact kind.ofText?_name

theorem typeLabel_canonical (e : Element) : e.canonical.typeLabel = e.typeLabel := by
  rw [typeLabel, kind?_canonical, canonical, typeLabel]
  cases e.kind? <;> rfl

theorem typeLabel_of_kind?_eq_none {e : Element} (h : e.kind? = none) :
    e.typeLabel = e.typeName := by
  rw [typeLabel, h]
  rfl

end Element

/-- Rules and resolving tell types apart by their kinds. -/
def Relabeling.canonical : Relabeling where
  element := Element.canonical
  flow := id
  slice := id
  id_element := Element.id_canonical
  cell_element := Element.cell_canonical
  kind?_element := Element.kind?_canonical
  source_flow _ := rfl
  target_flow _ := rfl
  direction_flow _ := rfl
  kind_slice _ := rfl
  columns_slice _ := rfl

theorem Relabeling.keepsNames_canonical : KeepsNames canonical :=
  ⟨Element.name_canonical, Element.typeLabel_canonical, fun _ => rfl⟩

theorem Relabeling.keepsLines_canonical : KeepsLines canonical :=
  ⟨Element.origin_canonical, fun _ => rfl, fun _ => rfl⟩

theorem Rule.diagnostics_canonical (r : Rule) (d : Diagram) :
    r.diagnostics (d.relabel .canonical) = r.diagnostics d := by
  rw [diagnostics, diagnostics, r.violations_relabel, List.map_map]
  refine List.map_congr_left fun v hv => Violation.diagnostic_relabel
    Relabeling.keepsLines_canonical Relabeling.keepsNames_canonical ?_
  -- a type is shown as it was written only if it is unrecognized, and then it has no other form
  rintro e rfl
  exact e.typeName_canonical.trans
    (Element.typeLabel_of_kind?_eq_none (isOn_of_mem_violations hv).1.2)

theorem Diagram.rejections_canonical (d : Diagram) :
    (d.relabel .canonical).rejections = d.rejections := by
  rw [rejections_eq_filter, rejections_eq_filter, Rule.diagnostics_canonical]

/-! ## Respelt diagrams -/

/-- An element is another with its type spelt differently, if the type is recognized at all. -/
structure Element.IsRespelt (e e' : Element) : Prop where
  eq : e' = { e with typeName := e'.typeName }
  typeName : e'.typeName = e.typeName ∨
    e.kind?.isSome = true ∧ ElementKind.IsRespelling e.typeName e'.typeName

/-- A diagram is another with the types of its elements spelt differently. -/
structure Diagram.IsRespelt (d d' : Diagram) : Prop where
  eq : d' = { d with elements := d'.elements }
  elements : List.Forall₂ Element.IsRespelt d.elements d'.elements

namespace Element.IsRespelt

variable {e e' : Element} (h : e.IsRespelt e')

include h

theorem typeLabel_eq : e'.typeLabel = e.typeLabel := by
  rcases h.typeName with hsame | ⟨hsome, hrespelling⟩
  · rw [typeLabel, typeLabel, kind?, kind?, hsame]
  · -- the text is not looked at once it names a kind
    obtain ⟨kind, hkind⟩ := Option.isSome_iff_exists.1 hsome
    have hkind' : e'.kind? = some kind := by rw [kind?, hrespelling.ofText?_eq, ← kind?, hkind]
    rw [typeLabel, typeLabel, hkind, hkind']
    rfl

theorem canonical_eq : e'.canonical = e.canonical := by
  rw [canonical, canonical, h.typeLabel_eq, h.eq]

theorem toString_eq : toString e' = toString e := by
  change e'.toString = e.toString
  rw [Element.toString, Element.toString, h.typeLabel_eq, h.eq]

end Element.IsRespelt

namespace Diagram.IsRespelt

variable {d d' : Diagram} (h : d.IsRespelt d')

include h

theorem relabel_canonical_eq : d'.relabel .canonical = d.relabel .canonical := by
  have helements : d'.elements.map Element.canonical = d.elements.map Element.canonical := by
    rw [map_eq_map_iff_forall₂]
    exact h.elements.flip.imp fun _ _ he => he.canonical_eq
  have hrest : d'.relabel .canonical =
      { d.relabel .canonical with elements := d'.elements.map Element.canonical } := by
    rw [h.eq]
    rfl
  rw [hrest, helements]
  rfl

theorem diagnostics_eq (r : Rule) : r.diagnostics d' = r.diagnostics d := by
  rw [← r.diagnostics_canonical d', h.relabel_canonical_eq, r.diagnostics_canonical d]

theorem connections_eq : d'.connections = d.connections := by
  rw [← d'.connections_relabel .canonical, h.relabel_canonical_eq,
    d.connections_relabel .canonical]

theorem rejections_eq : d'.rejections = d.rejections := by
  rw [← d'.rejections_canonical, h.relabel_canonical_eq, d.rejections_canonical]

theorem map_toString_eq : d'.elements.map toString = d.elements.map toString := by
  rw [map_eq_map_iff_forall₂]
  exact h.elements.flip.imp fun _ _ he => he.toString_eq

end Diagram.IsRespelt

/-! ## Reports -/

/-- **The spelling of types does not matter.**  When elements of recognized types are respelt, all
rules report the same, word for word, the same connections are drawn and the same flows rejected,
and each element is listed as it was.  The spellings of a kind are exactly the texts that agree
with its name but for underscores, white space and case, and for screens those that agree in this
way with `UI`; so no text names two kinds. -/
theorem reports_of_isRespelt :
    (∀ d d' : Diagram, d.IsRespelt d' →
      (∀ r : Rule, r.diagnostics d' = r.diagnostics d) ∧
        d'.connections = d.connections ∧
        d'.rejections = d.rejections ∧
        d'.elements.map toString = d.elements.map toString) ∧
    (∀ (text : String) (kind : ElementKind),
      ElementKind.ofText? text = some kind ↔ kind.IsNamedBy text) ∧
    (∀ (text : String) (kind kind' : ElementKind),
      kind.IsNamedBy text → kind'.IsNamedBy text → kind = kind') ∧
    ∀ (kind : ElementKind) (text : String), ElementKind.IsRespelling kind.name text →
      ElementKind.ofText? text = some kind := by
  refine ⟨fun d d' h => ⟨h.diagnostics_eq, h.connections_eq, h.rejections_eq,
    h.map_toString_eq⟩, fun _ _ => ElementKind.ofText?_eq_some_iff,
    fun _ _ _ h h' => h.unique h', fun kind text h => ?_⟩
  rw [h.ofText?_eq, kind.ofText?_name]

/-- A screen in the row of commands that leads to an automation and a read model, with a flow back
from the read model, and an element of no recognized type. -/
def sketched : Diagram :=
  let line (n : Nat) : Line := ⟨n, "", ⟨n, n, Nat.le_refl n⟩⟩
  { elements :=
      [{ id := 1, typeName := "Screen", name := "A", cell := ⟨0, 0⟩, origin := line 1 },
       { id := 2, typeName := "Automation", name := "B", cell := ⟨1, 1⟩, origin := line 2 },
       { id := 3, typeName := "Read_Model", name := "C", cell := ⟨0, 1⟩, origin := line 3 },
       { id := 4, typeName := "Gadget", name := "D", cell := ⟨1, 1⟩, origin := line 4 }]
    flows :=
      [⟨1, 2, .forward, line 5⟩, ⟨1, 3, .forward, line 6⟩, ⟨3, 1, .backward, line 7⟩] }

/-- The same diagram with other spellings. -/
def respelled : Diagram :=
  { sketched with
    elements := List.zipWith (fun e typeName => { e with typeName := typeName }) sketched.elements
      ["u_I", "　AUTO mation", "readMODEL", "Gadget"] }

theorem reports_of_isRespelt_respelled :
    sketched.IsRespelt respelled ∧
      ((Rule.all.map fun r => (r.diagnostics sketched).length) = [4, 3, 0] ∧
        sketched.rejections.length = 2 ∧ sketched.connections.length = 1) ∧
      (∀ r : Rule, r.diagnostics respelled = r.diagnostics sketched) ∧
      respelled.connections = sketched.connections ∧
      respelled.rejections = sketched.rejections := by
  have hrespelt : sketched.IsRespelt respelled := by
    refine ⟨rfl, .cons ⟨rfl, Or.inr ?_⟩ (.cons ⟨rfl, Or.inr ?_⟩ (.cons ⟨rfl, Or.inr ?_⟩
      (.cons ⟨rfl, Or.inl rfl⟩ .nil)))⟩ <;> decide +kernel
  obtain ⟨hrules, hconnections, hrejections, -⟩ :=
    reports_of_isRespelt.1 sketched respelled hrespelt
  exact ⟨hrespelt, by decide +kernel, hrules, hconnections, hrejections⟩

end EventModel
