import EventModel.Check.Failure
import EventModel.Connection.Resolution
import EventModel.Diagnostic.Log
import EventModel.Rule.RuleSet

/-!
# Checks

A check reads a text, applies the rules in force, resolves the flows and judges the result.
It fails on any error, and on any warning too if warnings are denied.  What resolving
reports is left out where a rule has reported the same problem.
-/

namespace EventModel

/-- How a text is checked. -/
structure Settings where
  rules : RuleSet := {}
  denyWarnings : Bool := false
deriving DecidableEq, Repr

/-- What a check that passes has to show. -/
structure Report where
  diagram : Diagram
  connections : List Connection
  diagnostics : List Diagnostic
deriving DecidableEq, Repr

/-- Everything that reading and resolving a text report. -/
def Settings.log (settings : Settings) (source : String) : Log :=
  let document := Document.parse settings.rules source
  document.diagram.rejections.foldl Log.recordNew (Log.recordAll {} document.diagnostics)

/-- Checks a text. -/
def Settings.check (settings : Settings) (source : String) : Except Failure Report :=
  match (settings.log source).accept with
  | .error found => .error (.diagnostics found source)
  | .ok warnings =>
    if settings.denyWarnings && !warnings.isEmpty then .error (.diagnostics warnings source)
    else
      let diagram := (Document.parse settings.rules source).diagram
      .ok ⟨diagram, diagram.connections, warnings⟩

end EventModel
