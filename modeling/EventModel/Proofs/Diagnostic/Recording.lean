import EventModel.Diagnostic.Log
import Mathlib.Data.List.Nodup

/-!
# What a log keeps

A log is told diagnostics by operations of three sorts, in any order.  The error that it notes is
one that it holds (`NotesErrors`), whatever it is told is in it or is left out for a diagnostic on
the same problem (`Accounts`), and what is in it stays in its place (`exists_entries_foldl_apply`).
-/

namespace EventModel

theorem Diagnostic.sameProblem_iff {d e : Diagnostic} :
    d.sameProblem e = true ↔ d.code = e.code ∧ d.line.number = e.line.number := by
  rw [sameProblem, Bool.and_eq_true, beq_iff_eq, beq_iff_eq]

theorem Diagnostic.sameProblem_self (d : Diagnostic) : d.sameProblem d = true :=
  sameProblem_iff.2 ⟨rfl, rfl⟩

theorem Diagnostic.isError_eq_true_iff {d : Diagnostic} :
    d.isError = true ↔ d.severity = .error := by
  rw [isError, beq_iff_eq]

namespace Log

/-- An error is noted just when one has been reported. -/
def NotesErrors (log : Log) : Prop := log.hasErrors = log.entries.any Diagnostic.isError

namespace NotesErrors

variable {log : Log}

theorem empty : NotesErrors {} := rfl

theorem record (h : log.NotesErrors) (d : Diagnostic) : (log.record d).NotesErrors := by
  rw [NotesErrors, hasErrors_record, entries_record, List.any_append, h]
  simp

theorem recordAll (h : log.NotesErrors) (ds : List Diagnostic) :
    (log.recordAll ds).NotesErrors := by
  induction ds generalizing log with
  | nil => exact h
  | cons d ds ih => exact ih (h.record d)

/-- What is left out needs no note: a diagnostic on the same problem is there. -/
theorem recordNew (h : log.NotesErrors) (d : Diagnostic) : (log.recordNew d).NotesErrors := by
  rw [Log.recordNew]
  split
  · exact h
  · exact h.record d

theorem foldl_recordNew (h : log.NotesErrors) (ds : List Diagnostic) :
    (ds.foldl Log.recordNew log).NotesErrors := by
  induction ds generalizing log with
  | nil => exact h
  | cons d ds ih => exact ih (h.recordNew d)

end NotesErrors

/-! ## Operations -/

/-- A way to report to a log. -/
inductive Operation
  | record (d : Diagnostic)
  | recordAll (ds : List Diagnostic)
  | recordNew (d : Diagnostic)
deriving DecidableEq, Repr

/-- Carries out an operation. -/
def apply (log : Log) : Operation → Log
  | .record d => log.record d
  | .recordAll ds => log.recordAll ds
  | .recordNew d => log.recordNew d

/-- The log that some operations make, one after the other. -/
def ofOperations (operations : List Operation) : Log := operations.foldl apply {}

namespace Operation

/-- What an operation supplies. -/
def supplied : Operation → List Diagnostic
  | record d | recordNew d => [d]
  | recordAll ds => ds

/-- What an operation adds to some entries.  One alone may be left out, for an entry with the same
code and line number. -/
def added (entries : List Diagnostic) : Operation → List Diagnostic
  | record d => [d]
  | recordAll ds => ds
  | recordNew d =>
    if ∃ e ∈ entries, e.code = d.code ∧ e.line.number = d.line.number then [] else [d]

theorem added_sublist (operation : Operation) (entries : List Diagnostic) :
    (operation.added entries).Sublist operation.supplied := by
  cases operation with
  | record d => exact List.Sublist.refl _
  | recordAll ds => exact List.Sublist.refl _
  | recordNew d =>
      rw [added]
      split
      · exact List.nil_sublist _
      · exact List.Sublist.refl _

end Operation

theorem entries_apply (log : Log) (operation : Operation) :
    (log.apply operation).entries = log.entries ++ operation.added log.entries := by
  cases operation with
  | record d => rfl
  | recordAll ds => exact entries_recordAll log ds
  | recordNew d =>
      have hknown : log.entries.any (·.sameProblem d) = true ↔
          ∃ e ∈ log.entries, e.code = d.code ∧ e.line.number = d.line.number := by
        simp only [List.any_eq_true, Diagnostic.sameProblem_iff]
      rw [apply, entries_recordNew, Operation.added]
      simp only [hknown]
      split
      · rw [List.append_nil]
      · rfl

theorem NotesErrors.apply {log : Log} (h : log.NotesErrors) (operation : Operation) :
    (log.apply operation).NotesErrors := by
  cases operation with
  | record d => exact h.record d
  | recordAll ds => exact h.recordAll ds
  | recordNew d => exact h.recordNew d

/-! ## Accounts -/

/-- The log accounts for all that was supplied, and holds nothing else. -/
structure Accounts (log : Log) (supplied : List Diagnostic) : Prop where
  notesErrors : log.NotesErrors
  sublist : log.entries.Sublist supplied
  represented : ∀ d ∈ supplied, ∃ e ∈ log.entries, e.code = d.code ∧ e.line.number = d.line.number

namespace Accounts

variable {log : Log} {supplied : List Diagnostic}

theorem empty : Accounts {} [] where
  notesErrors := .empty
  sublist := List.Sublist.refl _
  represented _ hd := absurd hd List.not_mem_nil

theorem apply (h : log.Accounts supplied) (operation : Operation) :
    (log.apply operation).Accounts (supplied ++ operation.supplied) where
  notesErrors := h.notesErrors.apply operation
  sublist := by
    rw [entries_apply]
    exact h.sublist.append (operation.added_sublist log.entries)
  represented := by
    intro d hd
    rw [entries_apply]
    simp only [List.mem_append]
    rcases List.mem_append.1 hd with hd | hd
    · obtain ⟨e, he, hsame⟩ := h.represented d hd
      exact ⟨e, Or.inl he, hsame⟩
    · -- what the operation supplies is added, unless an entry speaks for it
      cases operation with
      | record d' => exact ⟨d, Or.inr hd, rfl, rfl⟩
      | recordAll ds => exact ⟨d, Or.inr hd, rfl, rfl⟩
      | recordNew d' =>
          obtain rfl := List.mem_singleton.1 hd
          by_cases hknown : ∃ e ∈ log.entries, e.code = d.code ∧ e.line.number = d.line.number
          · obtain ⟨e, he, hsame⟩ := hknown
            exact ⟨e, Or.inl he, hsame⟩
          · refine ⟨d, Or.inr ?_, rfl, rfl⟩
            rw [Operation.added, if_neg hknown]
            exact hd

theorem foldl_apply (h : log.Accounts supplied) (operations : List Operation) :
    (operations.foldl Log.apply log).Accounts
      (supplied ++ operations.flatMap Operation.supplied) := by
  induction operations generalizing log supplied with
  | nil => simpa using h
  | cons operation operations ih =>
      rw [List.foldl_cons, List.flatMap_cons, ← List.append_assoc]
      exact ih (h.apply operation)

end Accounts

theorem accounts_ofOperations (operations : List Operation) :
    (ofOperations operations).Accounts (operations.flatMap Operation.supplied) :=
  Accounts.empty.foldl_apply operations

/-- Operations add to what is there, and change nothing of it. -/
theorem exists_entries_foldl_apply (log : Log) (operations : List Operation) :
    ∃ further, (operations.foldl apply log).entries = log.entries ++ further ∧
      further.Sublist (operations.flatMap Operation.supplied) := by
  induction operations generalizing log with
  | nil => exact ⟨[], (List.append_nil _).symm, List.Sublist.refl _⟩
  | cons operation operations ih =>
      obtain ⟨further, hentries, hfurther⟩ := ih (log.apply operation)
      refine ⟨operation.added log.entries ++ further, ?_, ?_⟩
      · rw [List.foldl_cons, hentries, entries_apply, List.append_assoc]
      · rw [List.flatMap_cons]
        exact (operation.added_sublist log.entries).append hfurther

theorem exists_entries_ofOperations {operations before after : List Operation}
    {operation : Operation} (h : operations = before ++ operation :: after) :
    ∃ further,
      (ofOperations operations).entries =
          (ofOperations before).entries ++ operation.added (ofOperations before).entries ++
            further ∧
        further.Sublist (after.flatMap Operation.supplied) := by
  rw [ofOperations, h, List.foldl_append, List.foldl_cons, ← ofOperations, ← entries_apply]
  exact exists_entries_foldl_apply _ after

/-- Where every diagnostic is kept out by an entry on its problem, no problem is stored twice. -/
theorem nodup_apply_recordNew {log : Log}
    (h : (log.entries.map fun e => (e.code, e.line.number)).Nodup) (d : Diagnostic) :
    ((log.apply (.recordNew d)).entries.map fun e => (e.code, e.line.number)).Nodup := by
  rw [entries_apply, Operation.added]
  split
  · rw [List.append_nil]
    exact h
  · rename_i hnew
    rw [List.map_append, List.map_singleton, ← List.concat_eq_append, List.nodup_concat]
    refine ⟨fun hmem => hnew ?_, h⟩
    obtain ⟨e, he, hsame⟩ := List.mem_map.1 hmem
    exact ⟨e, he, Prod.mk.inj hsame⟩

theorem nodup_foldl_recordNew {log : Log} {operations : List Operation}
    (h : (log.entries.map fun e => (e.code, e.line.number)).Nodup)
    (hnew : ∀ operation ∈ operations, ∃ d, operation = .recordNew d) :
    ((operations.foldl apply log).entries.map fun e => (e.code, e.line.number)).Nodup := by
  induction operations generalizing log with
  | nil => exact h
  | cons operation operations ih =>
      obtain ⟨d, rfl⟩ := hnew operation List.mem_cons_self
      exact ih (nodup_apply_recordNew h d) fun o ho => hnew o (List.mem_cons_of_mem _ ho)

/-! ## Acceptance -/

theorem NotesErrors.hasErrors_iff {log : Log} (h : log.NotesErrors) :
    log.hasErrors = true ↔ ∃ d ∈ log.entries, d.severity = .error := by
  rw [h, List.any_eq_true]
  simp only [Diagnostic.isError_eq_true_iff]

theorem accept_eq_error_iff {log : Log} {ds : List Diagnostic} :
    log.accept = .error ds ↔ log.hasErrors = true ∧ ds = log.entries := by
  rw [accept]
  split
  · rename_i herrors
    rw [Except.error.injEq, and_iff_right herrors, eq_comm]
  · rename_i hclean
    exact iff_of_false (by simp) fun h => hclean h.1

theorem accept_eq_ok_iff {log : Log} {ds : List Diagnostic} :
    log.accept = .ok ds ↔ log.hasErrors = false ∧ ds = log.entries := by
  rw [accept]
  split
  · rename_i herrors
    exact iff_of_false (by simp) fun h => absurd (herrors.symm.trans h.1) (by decide)
  · rename_i hclean
    rw [Except.ok.injEq, and_iff_right (Bool.not_eq_true _ ▸ hclean), eq_comm]

theorem Severity.ne_error_iff {severity : Severity} : severity ≠ .error ↔ severity = .warning := by
  cases severity <;> decide

/-- **A log accounts for what it is told.**  Whatever the operations and their order, an error is
noted just when one is stored; what is stored is some of what was supplied, in its order; each
operation adds, behind what is there, all that it supplies, or leaves a diagnostic out if one with
its code and line number is there already; so all that was supplied is spoken for, and nothing is
stored twice if everything was to be left out when known.  A log is refused just when an error is
stored, and either way hands on all that is stored. -/
theorem ofOperations_accounts (operations : List Operation) :
    ((ofOperations operations).hasErrors = true ↔
        ∃ d ∈ (ofOperations operations).entries, d.severity = .error) ∧
      (ofOperations operations).entries.Sublist (operations.flatMap Operation.supplied) ∧
      (∀ before operation after, operations = before ++ operation :: after →
        ∃ further,
          (ofOperations operations).entries =
              (ofOperations before).entries ++ operation.added (ofOperations before).entries ++
                further ∧
            further.Sublist (after.flatMap Operation.supplied)) ∧
      (∀ d ∈ operations.flatMap Operation.supplied, ∃ e ∈ (ofOperations operations).entries,
        e.code = d.code ∧ e.line.number = d.line.number) ∧
      ((∀ operation ∈ operations, ∃ d, operation = .recordNew d) →
        ((ofOperations operations).entries.map fun e => (e.code, e.line.number)).Nodup) ∧
      (∀ ds, (ofOperations operations).accept = .error ds ↔
        ds = (ofOperations operations).entries ∧ ∃ d ∈ ds, d.severity = .error) ∧
      ∀ ds, (ofOperations operations).accept = .ok ds ↔
        ds = (ofOperations operations).entries ∧ ∀ d ∈ ds, d.severity = .warning := by
  have haccounts := accounts_ofOperations operations
  have herrors := haccounts.notesErrors.hasErrors_iff
  refine ⟨herrors, haccounts.sublist, fun _ _ _ => exists_entries_ofOperations,
    haccounts.represented, nodup_foldl_recordNew List.nodup_nil, fun ds => ?_, fun ds => ?_⟩
  · rw [accept_eq_error_iff, herrors, and_comm]
    exact and_congr_right fun hds => by rw [hds]
  · rw [accept_eq_ok_iff, ← Bool.not_eq_true, herrors, and_comm]
    refine and_congr_right fun hds => ?_
    rw [hds]
    simp only [← Severity.ne_error_iff, not_exists, not_and]

end Log

end EventModel
