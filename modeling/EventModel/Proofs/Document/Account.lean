import EventModel.Document.Draft
import EventModel.Proofs.Lists
import Mathlib.Data.List.Induction
import Mathlib.Data.List.Nodup

/-!
# An account of a document without a state

A document is read statement by statement into a draft.  Here the same is said without any
state, by looking at where each statement stands: which declarations count, what every `TEXT`
statement attaches to which element, and what there is to report.
-/

namespace EventModel

/-! ## What a statement declares -/

/-- The directive that declares flows of a direction. -/
def FlowDirection.directive : FlowDirection → Directive
  | forward => .flow
  | backward => .backFlow

namespace Declaration

/-- The directive that makes a declaration. -/
def directive : Declaration → Directive
  | description _ => .description
  | level _ => .level
  | element .. => .element
  | note _ => .text
  | slice .. => .slice
  | flow direction .. => direction.directive

theorem directive_of_readElement {payload : List Char} {declaration : Declaration}
    (h : readElement payload = .ok declaration) : declaration.directive = .element := by
  unfold readElement at h
  split at h
  · split at h
    · exact absurd h (by simp)
    · unfold Except.map at h
      split at h
      · exact absurd h (by simp)
      · rw [← Except.ok.inj h]
        rfl
  · exact absurd h (by simp)

theorem directive_of_readSlice {payload : List Char} {declaration : Declaration}
    (h : readSlice payload = .ok declaration) : declaration.directive = .slice := by
  unfold readSlice at h
  split at h
  · split at h
    · exact absurd h (by simp)
    · simp only at h
      split at h
      · exact absurd h (by simp)
      · rw [← Except.ok.inj h]
        rfl
  · exact absurd h (by simp)

theorem directive_of_readFlow {direction : FlowDirection} {payload : List Char}
    {declaration : Declaration} (h : readFlow direction payload = .ok declaration) :
    declaration.directive = direction.directive := by
  unfold readFlow at h
  split at h
  · rw [← Except.ok.inj h]
    rfl
  · exact absurd h (by simp)

theorem directive_of_read {d : Directive} {payload : List Char} {declaration : Declaration}
    (h : read d payload = .ok declaration) : declaration.directive = d := by
  cases d with
  | description =>
      rw [read, readDescription] at h
      split at h
      · rw [← Except.ok.inj h]
        rfl
      · exact absurd h (by simp)
  | level =>
      rw [read, readLevel] at h
      split at h
      · rw [← Except.ok.inj h]
        rfl
      · exact absurd h (by simp)
  | element => exact directive_of_readElement h
  | text =>
      rw [← Except.ok.inj h]
      rfl
  | slice => exact directive_of_readSlice h
  | flow => exact directive_of_readFlow h
  | backFlow => exact directive_of_readFlow h

end Declaration

namespace Statement

theorem declaration_of_directive_none {s : Statement} (h : s.directive = none) :
    s.declaration = .error .unknownDirective := by
  rw [declaration, h]

/-- Each thing is declared by statements of its own directive and by no others. -/
theorem directive_of_declaration {s : Statement} {declaration : Declaration}
    (h : s.declaration = .ok declaration) : s.directive = some declaration.directive := by
  cases hdirective : s.directive with
  | none =>
      rw [declaration_of_directive_none hdirective] at h
      exact absurd h (by simp)
  | some d =>
      rw [Statement.declaration, hdirective] at h
      rw [Declaration.directive_of_read h]

/-- The description that a statement declares. -/
def description? (s : Statement) : Option String :=
  match s.declaration with
  | .ok (.description text) => some text
  | _ => none

/-- The level that a statement declares. -/
def level? (s : Statement) : Option UInt32 :=
  match s.declaration with
  | .ok (.level value) => some value
  | _ => none

/-- The element that a statement declares, be its id taken or not. -/
def element? (s : Statement) : Option Element :=
  match s.declaration with
  | .ok (.element id typeName name cell) => some { id, typeName, name, cell, origin := s.line }
  | _ => none

/-- The slice that a statement declares. -/
def slice? (s : Statement) : Option Slice :=
  match s.declaration with
  | .ok (.slice kind name columns) => some { kind, name, columns, origin := s.line }
  | _ => none

/-- The flow that a statement declares. -/
def flow? (s : Statement) : Option Flow :=
  match s.declaration with
  | .ok (.flow direction source target) => some { source, target, direction, origin := s.line }
  | _ => none

/-- The lines with which a `TEXT` statement opens its block of notes. -/
def noteStart (s : Statement) : List String :=
  let first := String.ofList (Text.trim s.payload)
  if first.isEmpty then [] else [first]

end Statement

/-- An element apart from its note. -/
def Element.withoutNote (e : Element) : Element := { e with note := none }

namespace Statement

/-- A declared element stands on the line of its statement and has no note yet. -/
theorem of_element? {s : Statement} {e : Element} (h : s.element? = some e) :
    e.origin = s.line ∧ e.withoutNote = e := by
  unfold Statement.element? at h
  split at h
  · rw [← Option.some.inj h]
    exact ⟨rfl, rfl⟩
  · exact absurd h (by simp)

theorem origin_of_flow? {s : Statement} {f : Flow} (h : s.flow? = some f) :
    f.origin = s.line := by
  unfold Statement.flow? at h
  split at h
  · rw [← Option.some.inj h]
  · exact absurd h (by simp)

theorem origin_of_slice? {s : Statement} {slice : Slice} (h : s.slice? = some slice) :
    slice.origin = s.line := by
  unfold Statement.slice? at h
  split at h
  · rw [← Option.some.inj h]
  · exact absurd h (by simp)

end Statement

/-- The note that some lines make up, unless they have no text. -/
def Note.ofLines? (lines : List String) : Option Note :=
  let text := "\n".intercalate lines
  if text.isEmpty then none else some ⟨text⟩

/-! ## What several statements declare -/

/-- The elements that some statements declare: of those with one id, only the first. -/
def acceptedElements (statements : List Statement) : List Element :=
  (statements.filterMap Statement.element?).eraseDupsBy fun a b => a.id == b.id

/-- The directive to which a line without one belongs after some statements. -/
def nearestDirective? (statements : List Statement) : Option Directive :=
  (statements.filterMap (·.directive)).getLast?

/-- A statement in its place: what comes before it, and what comes after it. -/
structure Occurrence where
  before : List Statement
  statement : Statement
  after : List Statement

namespace Occurrence

/-- The occurrences of some statements that follow upon others. -/
def listFrom (before : List Statement) : List Statement → List Occurrence
  | [] => []
  | s :: after => ⟨before, s, after⟩ :: listFrom (before ++ [s]) after

/-- The occurrences of some statements. -/
def list (statements : List Statement) : List Occurrence := listFrom [] statements

/-- Whether an unknown line is part of a block of notes. -/
def isSwallowed (o : Occurrence) : Bool :=
  o.statement.directive.isNone && nearestDirective? o.before == some .text

/-- What is wrong with a statement that can be read, where it stands. -/
def clash? (o : Occurrence) : Declaration → Option Fault
  | .element id .. =>
    ((acceptedElements o.before).find? (·.id == id)).map fun first =>
      .duplicateId id first.origin
  | .note _ => if acceptedElements o.before = [] then some .noteWithoutElement else none
  | _ => none

/-- What is wrong with a statement, where it stands. -/
def fault? (o : Occurrence) : Option Fault :=
  match o.statement.directive, o.statement.declaration with
  | none, _ => if o.isSwallowed then none else some .unknownDirective
  | some _, .error fault => some fault
  | some _, .ok declaration => o.clash? declaration

/-- What is reported on a statement, where it stands. -/
def diagnostic? (o : Occurrence) : Option Diagnostic :=
  o.fault?.map fun fault => fault.diagnostic o.statement

/-! ## Blocks of notes -/

/-- Whether a block of notes opens with the statement. -/
def isText (o : Occurrence) : Bool := o.statement.directive == some .text

/-- The unknown lines up to the next directive. -/
def continuation (o : Occurrence) : List Statement := o.after.takeWhile (·.directive.isNone)

/-- The lines of the block of notes that opens with the statement. -/
def block (o : Occurrence) : List String :=
  o.statement.noteStart ++ o.continuation.map (·.line.text)

/-- The line of the element that was accepted last before the statement. -/
def owner? (o : Occurrence) : Option Line :=
  (acceptedElements o.before).getLast?.map (·.origin)

/-- The note that a block holds. -/
def note? (o : Occurrence) : Option Note := Note.ofLines? o.block

/-- The notes attached to the element on a line, in the order of their blocks. -/
def notesFor (line : Line) (occurrences : List Occurrence) : List Note :=
  (occurrences.filter fun o => o.isText && o.owner? == some line).filterMap note?

end Occurrence

/-! ## One statement more -/

theorem acceptedElements_concat (ss : List Statement) (s : Statement) :
    acceptedElements (ss ++ [s]) = acceptedElements ss ++
      (s.element?.filter fun e => ((acceptedElements ss).find? (·.id == e.id)).isNone).toList := by
  rw [acceptedElements, List.filterMap_append]
  cases he : s.element? with
  | none => simp [acceptedElements, he]
  | some e =>
      rw [List.filterMap_cons_some he, List.filterMap_nil, List.eraseDupsBy,
        eraseDupsBy_loop_concat, ← List.eraseDupsBy, ← acceptedElements]
      by_cases htaken : (acceptedElements ss).any (fun b => e.id == b.id) = true
      · have hfind : ((acceptedElements ss).find? (·.id == e.id)).isNone = false := by
          rw [Option.isNone_eq_false_iff, List.find?_isSome]
          obtain ⟨b, hb, hid⟩ := List.any_eq_true.1 htaken
          exact ⟨b, hb, by rw [beq_iff_eq] at hid ⊢; exact hid.symm⟩
        rw [if_pos htaken]
        simp [Option.filter, hfind]
      · have hfind : ((acceptedElements ss).find? (·.id == e.id)).isNone = true := by
          rw [Option.isNone_iff_eq_none, List.find?_eq_none]
          intro b hb hid
          rw [beq_iff_eq] at hid
          exact htaken (List.any_eq_true.2 ⟨b, hb, by rw [hid, beq_self_eq_true]⟩)
        rw [if_neg htaken]
        simp [Option.filter, hfind]

theorem nodup_id_acceptedElements (ss : List Statement) :
    ((acceptedElements ss).map Element.id).Nodup :=
  List.pairwise_map.2 (pairwise_eraseDupsBy_key Element.id _)

theorem nearestDirective?_concat (ss : List Statement) (s : Statement) :
    nearestDirective? (ss ++ [s]) = s.directive.or (nearestDirective? ss) := by
  rw [nearestDirective?, List.filterMap_append, List.getLast?_append]
  change ([s].filterMap (·.directive)).getLast?.or (nearestDirective? ss) = _
  cases hs : s.directive with
  | none => simp [hs]
  | some d => simp [hs]

namespace Occurrence

theorem listFrom_append (before ss others : List Statement) :
    listFrom before (ss ++ others) =
      (listFrom before ss).map (fun o => { o with after := o.after ++ others }) ++
        listFrom (before ++ ss) others := by
  induction ss generalizing before with
  | nil => simp [listFrom]
  | cons s ss ih => simp [listFrom, ih]

/-- The occurrences of statements are the ways to cut them at one of them. -/
theorem mem_list_iff {ss : List Statement} {o : Occurrence} :
    o ∈ list ss ↔ ss = o.before ++ o.statement :: o.after := by
  suffices h : ∀ before, o ∈ listFrom before ss ↔
      ∃ front, o.before = before ++ front ∧ ss = front ++ o.statement :: o.after by
    rw [list, h []]
    simp
  induction ss with
  | nil => simp [listFrom]
  | cons s ss ih =>
      intro before
      rw [listFrom, List.mem_cons, ih]
      constructor
      · rintro (rfl | ⟨front, hbefore, rfl⟩)
        · exact ⟨[], by simp⟩
        · exact ⟨s :: front, by simp [hbefore]⟩
      · rintro ⟨front, hbefore, heq⟩
        cases front with
        | nil =>
            obtain ⟨rfl, rfl⟩ := List.cons.inj heq
            rw [List.append_nil] at hbefore
            exact Or.inl (by rw [← hbefore])
        | cons t front =>
            obtain ⟨rfl, rfl⟩ := List.cons.inj heq
            exact Or.inr ⟨front, by simp [hbefore]⟩

/-- What is reported on a statement depends on what comes before it only. -/
theorem filterMap_diagnostic?_concat (ss : List Statement) (s : Statement) :
    (list (ss ++ [s])).filterMap diagnostic? =
      (list ss).filterMap diagnostic? ++ (diagnostic? ⟨ss, s, []⟩).toList := by
  rw [list, listFrom_append, List.filterMap_append, List.filterMap_map, List.nil_append]
  have hafter : diagnostic? ∘ (fun o : Occurrence => { o with after := o.after ++ [s] }) =
      diagnostic? := rfl
  rw [hafter, ← list]
  cases hd : diagnostic? ⟨ss, s, []⟩ <;> simp [listFrom, hd]

end Occurrence

end EventModel
