import EventModel.Source.Line

/-!
# Statements

A statement is a meaningful line together with the directive it opens with.  The directive
is one of seven upper-case keywords, written before a colon; spaces and tabs may stand
between the two.  What follows the colon is the payload.  A line that opens with no known
directive is a statement too, and its payload is the whole line.
-/

namespace EventModel

/-- What a line declares. -/
inductive Directive
  | description
  | level
  | element
  | text
  | slice
  | flow
  | backFlow
deriving DecidableEq, Repr

namespace Directive

/-- All directives. -/
def all : List Directive := [description, level, element, text, slice, flow, backFlow]

/-- The keyword that a line opens with. -/
def keyword : Directive → String
  | description => "DESCRIPTION"
  | level => "LEVEL"
  | element => "ELEMENT"
  | text => "TEXT"
  | slice => "SLICE"
  | flow => "FLOW"
  | backFlow => "BACK_FLOW"

/-- The directive with a given keyword; case matters. -/
def ofKeyword? (word : String) : Option Directive := all.find? fun d => d.keyword == word

/-- The characters of which keywords are made. -/
def isKeywordChar (c : Char) : Bool := c.isAlpha || c == '_'

/-- Cuts a line into its directive and its payload. -/
def split? (text : List Char) : Option (Directive × List Char) :=
  match (text.dropWhile isKeywordChar).dropWhile Text.isSpaceOrTab with
  | ':' :: payload =>
    (ofKeyword? (String.ofList (text.takeWhile isKeywordChar))).map fun d => (d, payload)
  | _ => none

theorem ofKeyword?_keyword (d : Directive) : ofKeyword? d.keyword = some d := by
  cases d <;> decide

theorem keyword_injective {d e : Directive} (h : d.keyword = e.keyword) : d = e := by
  have := ofKeyword?_keyword d
  rw [h, ofKeyword?_keyword e] at this
  exact (Option.some.inj this).symm

end Directive

/-- A meaningful line with the directive it opens with, if it is a known one. -/
structure Statement where
  line : Line
  directive : Option Directive
  payload : List Char
deriving DecidableEq, Repr

namespace Statement

/-- Reads the directive of a line. -/
def ofLine (line : Line) : Statement :=
  match Directive.split? line.text.toList with
  | some (directive, payload) => ⟨line, some directive, payload⟩
  | none => ⟨line, none, line.text.toList⟩

/-- The statements of a document, in order. -/
def scan (source : String) : List Statement := (Line.scan source).map ofLine

/-- The byte of the line at which the payload starts. -/
def payloadOffset (s : Statement) : Nat :=
  Text.byteLength s.line.text.toList - Text.byteLength s.payload

/-- The place in the document of a range of bytes of the payload. -/
def locate (s : Statement) (first last : Nat) : Span :=
  s.line.span.sub (s.payloadOffset + first) (s.payloadOffset + last)

@[simp] theorem line_ofLine (line : Line) : (ofLine line).line = line := by
  unfold ofLine
  split <;> rfl

end Statement

end EventModel
