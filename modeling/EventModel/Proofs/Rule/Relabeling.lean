import EventModel.Proofs.Connection.Resolving
import EventModel.Proofs.Rule.Grouping
import EventModel.Rule.RuleSet

/-!
# Relabeled diagrams

Rules and resolving decide by ids, cells, kinds, directions and columns.  A change to the parts of a
diagram that keeps these can be made before the rules are applied, or afterwards to what they find
(`Rule.violations_relabel`), and it does not touch what is drawn (`Diagram.connections_relabel`).
If names and lines are kept as well, the violations are reported alike
(`Violation.diagnostic_relabel`).
-/

namespace EventModel

/-- A change to the parts of diagrams that keeps all by which rules and resolving decide. -/
structure Relabeling where
  element : Element → Element
  flow : Flow → Flow
  slice : Slice → Slice
  id_element : ∀ e, (element e).id = e.id
  cell_element : ∀ e, (element e).cell = e.cell
  kind?_element : ∀ e, (element e).kind? = e.kind?
  source_flow : ∀ f, (flow f).source = f.source
  target_flow : ∀ f, (flow f).target = f.target
  direction_flow : ∀ f, (flow f).direction = f.direction
  kind_slice : ∀ s, (slice s).kind = s.kind
  columns_slice : ∀ s, (slice s).columns = s.columns

attribute [simp] Relabeling.id_element Relabeling.cell_element Relabeling.kind?_element
  Relabeling.source_flow Relabeling.target_flow Relabeling.direction_flow Relabeling.kind_slice
  Relabeling.columns_slice

/-- A diagram with all its parts changed. -/
def Diagram.relabel (d : Diagram) (m : Relabeling) : Diagram :=
  { d with
    elements := d.elements.map m.element
    flows := d.flows.map m.flow
    slices := d.slices.map m.slice }

/-- A violation with all changed that takes part in it. -/
def Violation.relabel (m : Relabeling) : Violation → Violation
  | unrecognizedKind e => unrecognizedKind (m.element e)
  | outsideBand e kind band => outsideBand (m.element e) kind band
  | sharedCell e group => sharedCell (m.element e) (group.map m.element)
  | branchGap event command => branchGap (m.element event) (m.element command)
  | screenToAutomation f source target =>
    screenToAutomation (m.flow f) (m.element source) (m.element target)
  | backFlow f source target => backFlow (m.flow f) (m.element source) (m.element target)
  | disallowedFlow f source target =>
    disallowedFlow (m.flow f) (m.element source) (m.element target)
  | sliceDefect s defect => sliceDefect (m.slice s) defect

variable (m : Relabeling)

/-! ## What is kept -/

namespace Relabeling

@[simp] theorem row_element (e : Element) : (m.element e).row = e.row := by
  rw [Element.row, Element.row, m.cell_element]

@[simp] theorem column_element (e : Element) : (m.element e).column = e.column := by
  rw [Element.column, Element.column, m.cell_element]

@[simp] theorem isKind_element (e : Element) (kind : ElementKind) :
    (m.element e).isKind kind = e.isKind kind := by
  rw [Element.isKind, Element.isKind, m.kind?_element]

theorem filter_isKind_map (elements : List Element) (kind : ElementKind) :
    (elements.map m.element).filter (·.isKind kind) =
      (elements.filter (·.isKind kind)).map m.element := by
  rw [List.filter_map]
  simp only [Function.comp_def, isKind_element]

@[simp] theorem connection_flow (f : Flow) (source target : Element) :
    (m.flow f).connection (m.element source) (m.element target) =
      f.connection source target := by
  simp only [Flow.connection, Flow.anchors, Flow.style, m.direction_flow, m.cell_element,
    m.id_element]

end Relabeling

namespace Diagram

@[simp] theorem elements_relabel (d : Diagram) :
    (d.relabel m).elements = d.elements.map m.element := rfl

@[simp] theorem flows_relabel (d : Diagram) : (d.relabel m).flows = d.flows.map m.flow := rfl

@[simp] theorem slices_relabel (d : Diagram) : (d.relabel m).slices = d.slices.map m.slice := rfl

theorem element?_relabel (d : Diagram) (id : ElementId) :
    (d.relabel m).element? id = (d.element? id).map m.element := by
  rw [element?, element?, elements_relabel, List.find?_map]
  simp only [Function.comp_def, m.id_element]

end Diagram

/-! ## Positioning -/

namespace Positioning

theorem lowestEventRow?_map (elements : List Element) :
    lowestEventRow? (elements.map m.element) = lowestEventRow? elements := by
  rw [lowestEventRow?, lowestEventRow?, m.filter_isKind_map, List.map_map]
  simp only [Function.comp_def, m.row_element]

theorem externalEventLimit_map (elements : List Element) :
    externalEventLimit (elements.map m.element) = externalEventLimit elements := by
  rw [externalEventLimit, externalEventLimit, lowestEventRow?_map]

theorem rowViolation?_relabel (limit : Int32) (e : Element) :
    rowViolation? limit (m.element e) = (rowViolation? limit e).map (Violation.relabel m) := by
  rw [rowViolation?, rowViolation?, m.kind?_element, m.row_element]
  cases e.kind? with
  | none => rfl
  | some kind =>
      simp only
      rw [apply_ite (Option.map (Violation.relabel m))]
      rfl

theorem rowViolations_map (elements : List Element) :
    rowViolations (elements.map m.element) =
      (rowViolations elements).map (Violation.relabel m) := by
  rw [rowViolations, rowViolations, externalEventLimit_map, List.filterMap_map,
    List.map_filterMap]
  refine List.filterMap_congr fun e _ => ?_
  rw [Function.comp_apply, rowViolation?_relabel]

theorem occupants_map (elements : List Element) (cell : Cell) :
    occupants (elements.map m.element) cell = (occupants elements cell).map m.element := by
  rw [occupants, List.filter_map]
  simp only [Function.comp_def, m.cell_element]
  rfl

theorem sharedCells_map (elements : List Element) :
    sharedCells (elements.map m.element) = (sharedCells elements).map (Violation.relabel m) := by
  have hcells : occupiedCells (elements.map m.element) = occupiedCells elements := by
    rw [occupiedCells, occupiedCells, List.map_map]
    simp only [Function.comp_def, m.cell_element]
  have hgroup (group : List Element) :
      sharedCellViolations (group.map m.element) =
        (sharedCellViolations group).map (Violation.relabel m) := by
    rw [sharedCellViolations, sharedCellViolations, List.length_map]
    split
    · rw [List.map_map, List.map_map]
      rfl
    · rfl
  rw [sharedCells_eq, sharedCells_eq, hcells, List.map_flatMap]
  congr 1
  funext cell
  rw [occupants_map, hgroup]

theorem branchEvent?_relabel (d : Diagram) (command : Element) (f : Flow) :
    branchEvent? (d.relabel m) (m.element command) (m.flow f) =
      (branchEvent? d command f).map m.element := by
  rw [branchEvent?, branchEvent?, Diagram.get?_byId, Diagram.get?_byId, m.direction_flow,
    m.source_flow, m.target_flow, m.id_element, d.element?_relabel]
  split
  · rw [Option.filter_map]
    simp only [Function.comp_def, m.isKind_element]
  · rfl

theorem branch_relabel (d : Diagram) (command : Element) :
    branch (d.relabel m) (m.element command) = (branch d command).map m.element := by
  have hevents :
      (d.relabel m).flows.filterMap (branchEvent? (d.relabel m) (m.element command)) =
        (d.flows.filterMap (branchEvent? d command)).map m.element := by
    rw [Diagram.flows_relabel, List.filterMap_map, List.map_filterMap]
    exact List.filterMap_congr fun f _ => branchEvent?_relabel m d command f
  rw [branch, branch, hevents]
  exact eraseDupsBy_key_map m.id_element _

theorem branchGaps_relabel (d : Diagram) :
    branchGaps (d.relabel m) = (branchGaps d).map (Violation.relabel m) := by
  have hconsecutive (events : List Element) :
      areConsecutive (events.map m.element) = areConsecutive events := by
    rw [areConsecutive, areConsecutive, List.map_map]
    simp only [Function.comp_def, m.column_element]
  rw [branchGaps, branchGaps, Diagram.elements_relabel, m.filter_isKind_map, List.flatMap_map,
    List.map_flatMap]
  congr 1
  funext command
  simp only [branchViolations]
  rw [branch_relabel, hconsecutive]
  split
  · rfl
  · rw [List.map_map, List.map_map]
    rfl

theorem violations_relabel (d : Diagram) :
    violations (d.relabel m) = (violations d).map (Violation.relabel m) := by
  rw [violations, violations, List.map_append, List.map_append, branchGaps_relabel,
    Diagram.elements_relabel, rowViolations_map, sharedCells_map]

end Positioning

/-! ## Flows -/

namespace FlowTyping

theorem rejection?_relabel (f : Flow) (source target : Element) :
    rejection? (m.flow f) (m.element source) (m.element target) =
      (rejection? f source target).map (Violation.relabel m) := by
  rw [rejection?, rejection?, m.direction_flow]
  simp only [m.isKind_element]
  cases f.direction with
  | forward =>
      simp only
      rw [apply_ite (Option.map (Violation.relabel m))]
      rfl
  | backward =>
      simp only
      rw [apply_ite (Option.map (Violation.relabel m))]
      rfl

theorem violation?_relabel (f : Flow) (source target : Element) :
    violation? (m.flow f) (m.element source) (m.element target) =
      (violation? f source target).map (Violation.relabel m) := by
  have hjoins : joins (m.element source) (m.element target) = joins source target := by
    rw [joins, joins, m.kind?_element, m.kind?_element]
  rw [violation?, violation?, rejection?_relabel, m.direction_flow, hjoins]
  cases rejection? f source target with
  | some v => rfl
  | none =>
      simp only [Option.map_none]
      rw [apply_ite (Option.map (Violation.relabel m))]
      rfl

theorem flowViolation?_relabel (d : Diagram) (f : Flow) :
    flowViolation? (d.relabel m) (m.flow f) =
      (flowViolation? d f).map (Violation.relabel m) := by
  simp only [flowViolation?, Diagram.get?_byId, m.source_flow, m.target_flow, d.element?_relabel]
  cases d.element? f.source with
  | none => rfl
  | some source =>
      cases d.element? f.target with
      | none => rfl
      | some target => exact violation?_relabel m f source target

theorem violations_relabel (d : Diagram) :
    violations (d.relabel m) = (violations d).map (Violation.relabel m) := by
  rw [violations, violations, Diagram.flows_relabel, List.filterMap_map, List.map_filterMap]
  exact List.filterMap_congr fun f _ => flowViolation?_relabel m d f

end FlowTyping

theorem Diagram.connections_relabel (d : Diagram) :
    (d.relabel m).connections = d.connections := by
  have houtcome (f : Flow) : ((d.relabel m).outcome (m.flow f)).connection? =
      (d.outcome f).connection? := by
    rw [outcome, outcome, m.source_flow, m.target_flow, d.element?_relabel, d.element?_relabel]
    cases d.element? f.source with
    | none => rfl
    | some source =>
        cases d.element? f.target with
        | none => rfl
        | some target =>
            simp only [Option.map_some]
            rw [FlowTyping.rejection?_relabel, m.connection_flow]
            cases FlowTyping.rejection? f source target <;> rfl
  rw [connections_eq, connections_eq, outcomes, outcomes, flows_relabel, List.map_map,
    List.filterMap_map, List.filterMap_map]
  exact List.filterMap_congr fun f _ => houtcome f

/-! ## Slices -/

theorem Composition.violations_relabel (d : Diagram) :
    violations (d.relabel m) = (violations d).map (Violation.relabel m) := by
  have hslice (s : Slice) :
      sliceViolation? (d.elements.map m.element) (m.slice s) =
        (sliceViolation? d.elements s).map (Violation.relabel m) := by
    have hkinds : kindsIn (d.elements.map m.element) (m.slice s) = kindsIn d.elements s := by
      rw [kindsIn, kindsIn, List.filter_map, List.filterMap_map]
      simp only [Function.comp_def, m.cell_element, m.columns_slice, m.kind?_element]
    rw [sliceViolation?, sliceViolation?, hkinds, m.kind_slice, Option.map_map]
    rfl
  rw [violations, violations, Diagram.slices_relabel, Diagram.elements_relabel,
    List.filterMap_map, List.map_filterMap]
  exact List.filterMap_congr fun s _ => hslice s

/-! ## All rules -/

/-- A rule finds the same in a relabeled diagram, relabeled. -/
theorem Rule.violations_relabel (d : Diagram) (r : Rule) :
    r.violations (d.relabel m) = (r.violations d).map (Violation.relabel m) := by
  cases r with
  | positioning => exact Positioning.violations_relabel m d
  | flowTypes => exact FlowTyping.violations_relabel m d
  | slices => exact Composition.violations_relabel m d

/-! ## Wording -/

/-- A relabeling that also keeps what messages call the parts of a diagram. -/
structure Relabeling.KeepsNames (m : Relabeling) : Prop where
  name_element : ∀ e, (m.element e).name = e.name
  typeLabel_element : ∀ e, (m.element e).typeLabel = e.typeLabel
  name_slice : ∀ s, (m.slice s).name = s.name

/-- A relabeling that also keeps the lines on which the parts of a diagram are declared. -/
structure Relabeling.KeepsLines (m : Relabeling) : Prop where
  origin_element : ∀ e, (m.element e).origin = e.origin
  origin_flow : ∀ f, (m.flow f).origin = f.origin
  origin_slice : ∀ s, (m.slice s).origin = s.origin

namespace Violation

theorem code_relabel (v : Violation) : (v.relabel m).code = v.code := by
  cases v <;> rfl

theorem help?_relabel (v : Violation) : (v.relabel m).help? = v.help? := by
  cases v <;> rfl

/-- The type of an unrecognized element is the one text that messages show as it was written. -/
theorem message_relabel {m : Relabeling} (hm : m.KeepsNames) {v : Violation}
    (hv : ∀ e, v = unrecognizedKind e → (m.element e).typeName = e.typeName) :
    (v.relabel m).message = v.message := by
  rw [message.eq_def, message.eq_def]
  cases v with
  | unrecognizedKind e => simp only [relabel, hm.name_element, hv e rfl]
  | outsideBand e kind band => simp only [relabel, hm.name_element, m.cell_element]
  | sharedCell e group =>
      simp only [relabel, m.cell_element, List.map_map, Function.comp_def, hm.name_element]
  | branchGap event command => simp only [relabel, hm.name_element]
  | screenToAutomation f source target => simp only [relabel, endpointNames, hm.name_element]
  | backFlow f source target =>
      simp only [relabel, endpointNames, hm.name_element, hm.typeLabel_element]
  | disallowedFlow f source target =>
      simp only [relabel, endpointNames, hm.name_element, hm.typeLabel_element]
  | sliceDefect s defect => simp only [relabel, hm.name_slice, m.kind_slice]

theorem line_relabel {m : Relabeling} (hm : m.KeepsLines) (v : Violation) :
    (v.relabel m).line = v.line := by
  cases v with
  | unrecognizedKind | outsideBand | sharedCell | branchGap =>
      simp only [relabel, line, hm.origin_element]
  | screenToAutomation | backFlow | disallowedFlow => simp only [relabel, line, hm.origin_flow]
  | sliceDefect => simp only [relabel, line, hm.origin_slice]

theorem labels_relabel {m : Relabeling} (hlines : m.KeepsLines) (hnames : m.KeepsNames)
    (v : Violation) : (v.relabel m).labels = v.labels := by
  cases v with
  | sharedCell e group =>
      simp only [relabel, labels, List.filter_map, List.map_map, Function.comp_def, m.id_element,
        m.cell_element, hnames.name_element, hlines.origin_element]
  | branchGap event command => simp only [relabel, labels, hlines.origin_element]
  | _ => rfl

/-- What is kept of the parts of a diagram is all that a report shows of them. -/
theorem diagnostic_relabel {m : Relabeling} (hlines : m.KeepsLines) (hnames : m.KeepsNames)
    {v : Violation} (hv : ∀ e, v = unrecognizedKind e → (m.element e).typeName = e.typeName) :
    (v.relabel m).diagnostic = v.diagnostic := by
  rw [diagnostic, diagnostic, v.code_relabel, v.line_relabel hlines, message_relabel hnames hv,
    v.labels_relabel hlines hnames, v.help?_relabel]

end Violation

end EventModel
