import EventModel.Document.Declaration

/-!
# Drafts

A draft is a diagram under construction.  The statements of a document are added to it one
by one: each declares something, or is refused with a diagnostic and otherwise passed over.

A `TEXT` statement opens a block of notes.  While it is open, lines without a known
directive belong to it; any directive closes it, and its lines become the note of the
element accepted last.  A block without any text leaves that element's note alone.
-/

namespace EventModel

/-- Gives the last of some elements a note, in place of one that it may have. -/
def Element.annotateLast (note : Note) : List Element → List Element
  | [] => []
  | [e] => [{ e with note := some note }]
  | e :: f :: es => e :: Element.annotateLast note (f :: es)

/-- A diagram under construction, with the lines of the open block of notes, if one is open,
and what has been reported so far. -/
structure Draft where
  diagram : Diagram := {}
  block : Option (List String) := none
  diagnostics : List Diagnostic := []
deriving DecidableEq, Repr

namespace Draft

/-- Refuses a statement. -/
def refuse (d : Draft) (s : Statement) (fault : Fault) : Draft :=
  { d with diagnostics := d.diagnostics ++ [fault.diagnostic s] }

/-- Closes the open block of notes. -/
def closeBlock (d : Draft) : Draft :=
  match d.block with
  | none => d
  | some lines =>
    let text := "\n".intercalate lines
    if text.isEmpty then { d with block := none }
    else
      { d with
        diagram := { d.diagram with elements := Element.annotateLast ⟨text⟩ d.diagram.elements }
        block := none }

/-- Adds an element, unless its id is taken. -/
def addElement (d : Draft) (s : Statement) (e : Element) : Draft :=
  match d.diagram.element? e.id with
  | some first => d.refuse s (.duplicateId e.id first.origin)
  | none => { d with diagram := { d.diagram with elements := d.diagram.elements ++ [e] } }

/-- Opens a block of notes.  Without an element to attach it to, the statement is refused;
the block is opened all the same, so that the lines that follow are not taken for faults. -/
def openBlock (d : Draft) (s : Statement) (first : String) : Draft :=
  let opened := { d with block := some (if first.isEmpty then [] else [first]) }
  if d.diagram.elements.isEmpty then opened.refuse s .noteWithoutElement else opened

/-- Adds what a statement declares. -/
def declare (d : Draft) (s : Statement) : Declaration → Draft
  | .description text => { d with diagram := { d.diagram with description := some text } }
  | .level value => { d with diagram := { d.diagram with level := some value } }
  | .element id typeName name cell =>
    d.addElement s { id, typeName, name, cell, origin := s.line }
  | .note first => d.openBlock s first
  | .slice kind name columns =>
    let slice := { kind, name, columns, origin := s.line }
    { d with diagram := { d.diagram with slices := d.diagram.slices ++ [slice] } }
  | .flow direction source target =>
    let flow := { source, target, direction, origin := s.line }
    { d with diagram := { d.diagram with flows := d.diagram.flows ++ [flow] } }

/-- Adds a statement on which no block of notes is open. -/
def accept (d : Draft) (s : Statement) : Draft :=
  match s.declaration with
  | .ok declaration => d.declare s declaration
  | .error fault => d.refuse s fault

/-- Adds a statement. -/
def add (d : Draft) (s : Statement) : Draft :=
  match d.block, s.directive with
  | some lines, none => { d with block := some (lines ++ [s.line.text]) }
  | _, _ => d.closeBlock.accept s

end Draft

/-- What has been read from a text: a diagram and everything there is to report. -/
structure Document where
  diagram : Diagram
  diagnostics : List Diagnostic
deriving DecidableEq, Repr

namespace Document

/-- Whether an error has been reported. -/
def hasErrors (d : Document) : Bool := d.diagnostics.any Diagnostic.isError

/-- Reads a list of statements. -/
def ofStatements (statements : List Statement) : Document :=
  let draft := (statements.foldl Draft.add {}).closeBlock
  ⟨draft.diagram, draft.diagnostics⟩

/-- Reads a text without applying any rule. -/
def build (source : String) : Document := ofStatements (Statement.scan source)

end Document

end EventModel
