import EventModel.Document.Draft
import EventModel.Rule.Composition
import EventModel.Rule.FlowTyping
import EventModel.Rule.Positioning

/-!
# Rule sets

There are three rules, and each can be switched off.  They read the diagram only, so none
depends on what another reports; what they report comes rule by rule after the errors found
in reading.
-/

namespace EventModel

/-- A modeling rule. -/
inductive Rule
  | positioning
  | flowTypes
  | slices
deriving DecidableEq, Repr

namespace Rule

/-- All rules, in the order in which they report. -/
def all : List Rule := [positioning, flowTypes, slices]

/-- The name of a rule. -/
def name : Rule → String
  | positioning => "positioning"
  | flowTypes => "flow-types"
  | slices => "slices"

/-- The rule with a given name. -/
def ofName? (name : String) : Option Rule := all.find? fun r => r.name == name

/-- How a diagram breaks a rule. -/
def violations (d : Diagram) : Rule → List Violation
  | positioning => Positioning.violations d
  | flowTypes => FlowTyping.violations d
  | slices => Composition.violations d

/-- What a rule reports on a diagram. -/
def diagnostics (r : Rule) (d : Diagram) : List Diagnostic :=
  (r.violations d).map Violation.diagnostic

end Rule

/-- Which rules are in force; all are by default. -/
structure RuleSet where
  positioning : Bool := true
  flowTypes : Bool := true
  slices : Bool := true
deriving DecidableEq, Repr

namespace RuleSet

/-- No rule at all. -/
def none : RuleSet := ⟨false, false, false⟩

/-- Whether a rule is in force. -/
def enables (rules : RuleSet) : Rule → Bool
  | .positioning => rules.positioning
  | .flowTypes => rules.flowTypes
  | .slices => rules.slices

/-- What the rules in force report on a diagram. -/
def diagnostics (rules : RuleSet) (d : Diagram) : List Diagnostic :=
  (Rule.all.filter rules.enables).flatMap (·.diagnostics d)

end RuleSet

namespace Document

/-- Reads a text and applies rules to what it declares. -/
def parse (rules : RuleSet) (source : String) : Document :=
  let built := build source
  { built with diagnostics := built.diagnostics ++ rules.diagnostics built.diagram }

/-- The rules add to the report and leave the diagram alone. -/
@[simp] theorem diagram_parse (rules : RuleSet) (source : String) :
    (parse rules source).diagram = (build source).diagram := rfl

end Document

end EventModel
