import EventModel.Check.Report
import EventModel.Toml.Document

/-!
# Configuration files

Settings are kept in TOML, under `rules` and `report`.  What is missing keeps its default,
and unknown keys are passed over, but every value must be one that can be represented.  The
switches of a section may also be listed in an array, in their order.
-/

namespace EventModel

namespace Toml

mutual

/-- Whether a value that is passed over can be represented: integers that have a value, in
128 bits, and floats in 64. -/
def Value.isRepresentable : Value → Bool
  | .integer n => n.any fun n => -(2 ^ 127) ≤ n && n < 2 ^ 128
  | .float inRange => inRange
  | .array items => areRepresentable items
  | .table _ entries => entriesRepresentable entries
  | .tables elements => tablesRepresentable elements
  | .boolean _ | .text _ | .dateTime => true

/-- Whether all values of a list can be represented. -/
def areRepresentable : List Value → Bool
  | [] => true
  | item :: items => item.isRepresentable && areRepresentable items

/-- Whether all values of a table can be represented. -/
def entriesRepresentable : List (List Char × Value) → Bool
  | [] => true
  | entry :: entries => entry.2.isRepresentable && entriesRepresentable entries

/-- Whether all values of an array of tables can be represented. -/
def tablesRepresentable : List (List (List Char × Value)) → Bool
  | [] => true
  | entries :: others => entriesRepresentable entries && tablesRepresentable others

end

/-- Whether whatever stands under other keys than those given can be represented. -/
def Entries.othersRepresentable (es : Entries) (known : List String) : Bool :=
  entriesRepresentable (es.filter fun e => !known.contains (String.ofList e.1))

/-- A switch, from the value that is given for it. -/
def switch? (default : Bool) : Option Value → Option Bool
  | none => some default
  | some (.boolean b) => some b
  | some _ => none

/-- The switches of a section, given their names and defaults. -/
def section? (switches : List (String × Bool)) : Option Value → Option (List Bool)
  | none => some (switches.map Prod.snd)
  | some .dateTime => some (switches.map Prod.snd)
  | some (.table _ entries) =>
    if Entries.othersRepresentable entries (switches.map Prod.fst) then
      switches.mapM fun (name, default) => switch? default (Entries.get? entries name.toList)
    else none
  | some (.array items) => switches.zipIdx.mapM fun (s, i) => switch? s.2 items[i]?
  | some _ => none

end Toml

namespace RuleSet

/-- The rules in force, from the switches given for them. -/
def ofSection? (value : Option Toml.Value) : Option RuleSet := do
  let switches ←
    Toml.section? [("positioning", true), ("flow_types", true), ("slices", true)] value
  match switches with
  | [positioning, flowTypes, slices] => some ⟨positioning, flowTypes, slices⟩
  | _ => none

end RuleSet

namespace Settings

/-- The settings that the entries of a TOML text hold. -/
def ofEntries? (es : Toml.Entries) : Option Settings := do
  let rules ← RuleSet.ofSection? (es.get? "rules".toList)
  let report ← Toml.section? [("deny_warnings", false)] (es.get? "report".toList)
  if es.othersRepresentable ["rules", "report"] then
    some ⟨rules, report.headD false⟩
  else none

/-- The settings that a configuration file holds. -/
def ofToml (source : String) : Except ConfigurationFault Settings :=
  ((Toml.read? source).bind ofEntries?).elim (.error .malformed) .ok

end Settings

end EventModel
