import EventModel.Diagnostic.Basic

/-!
# Logs

A log gathers diagnostics in the order in which they are reported.  It notes errors as they come,
and it is accepted in the end when none has been noted.
-/

namespace EventModel

/-- Diagnostics in the order of their report, and whether an error has been noted. -/
structure Log where
  entries : List Diagnostic := []
  hasErrors : Bool := false
deriving DecidableEq, Repr

namespace Log

/-- Reports a diagnostic; an error is noted for good. -/
def record (log : Log) (d : Diagnostic) : Log where
  entries := log.entries ++ [d]
  hasErrors := log.hasErrors || d.isError

/-- Reports diagnostics in order. -/
def recordAll (log : Log) (ds : List Diagnostic) : Log := ds.foldl record log

/-- Reports a diagnostic unless one on the same problem has been reported. -/
def recordNew (log : Log) (d : Diagnostic) : Log :=
  if log.entries.any (·.sameProblem d) then log else log.record d

/-- The reported warnings, or everything reported if an error has been noted. -/
def accept (log : Log) : Except (List Diagnostic) (List Diagnostic) :=
  if log.hasErrors then .error log.entries else .ok log.entries

@[simp] theorem entries_record (log : Log) (d : Diagnostic) :
    (log.record d).entries = log.entries ++ [d] := rfl

@[simp] theorem hasErrors_record (log : Log) (d : Diagnostic) :
    (log.record d).hasErrors = (log.hasErrors || d.isError) := rfl

@[simp] theorem entries_recordAll (log : Log) (ds : List Diagnostic) :
    (log.recordAll ds).entries = log.entries ++ ds := by
  induction ds generalizing log with
  | nil => simp [recordAll]
  | cons d ds ih =>
    have step : log.recordAll (d :: ds) = (log.record d).recordAll ds := rfl
    simp [step, ih]

theorem entries_recordNew (log : Log) (d : Diagnostic) :
    (log.recordNew d).entries =
      if log.entries.any (·.sameProblem d) then log.entries else log.entries ++ [d] := by
  unfold recordNew
  split <;> rfl

end Log

end EventModel
