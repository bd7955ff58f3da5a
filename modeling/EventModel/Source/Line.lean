import EventModel.Text.Fragment
import EventModel.Source.Span

/-!
# Lines

A document is read line by line.  Lines end at a line feed only; each is trimmed, and blank
lines and lines that start with `#` carry no meaning.  A meaningful line keeps its number,
its trimmed text and the place of that text in the document, so that whatever is declared
on it can be pointed at later.
-/

namespace EventModel

/-- The bytes that a fragment occupies. -/
def Text.Fragment.span (f : Text.Fragment) : Span where
  start := f.offset
  stop := f.stop
  start_le_stop := Nat.le_add_right _ _

/-- A line of a document: its number, counted from one, its trimmed text and the bytes
which that text occupies. -/
structure Line where
  number : Nat
  text : String
  span : Span
deriving DecidableEq, Repr

namespace Line

/-- The line as it is quoted in a list of lines. -/
protected def toString (line : Line) : String := s!"line {line.number}: {line.text}"

instance : ToString Line := ⟨Line.toString⟩

/-- Blank lines and comments are skipped. -/
def isMeaningful : List Char → Bool
  | [] => false
  | c :: _ => c != '#'

/-- The line that a piece of a document makes up, if it is meaningful. -/
def ofFragment? (piece : Text.Fragment × Nat) : Option Line :=
  let body := piece.1.trim
  if isMeaningful body.text then
    some { number := piece.2
           text := String.ofList body.text
           span := body.span }
  else
    none

/-- The meaningful lines of a document, in order. -/
def scan (source : String) : List Line :=
  ((Text.Fragment.locate 0 (source.toList.splitOn '\n')).zipIdx 1).filterMap ofFragment?

end Line

end EventModel
