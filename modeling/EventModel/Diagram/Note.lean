import EventModel.Text.Blank

/-!
# Notes

A note is free text attached to an element, of one or more lines.  Where its parts have the
form `key: value` they can be read as entries.
-/

namespace EventModel

/-- Free text attached to an element; its lines are joined by line feeds. -/
structure Note where
  text : String
deriving DecidableEq, Repr

namespace Note

/-- Entries are separated by semicolons or line feeds. -/
def isSeparator (c : Char) : Bool := c == ';' || c == '\n'

/-- The entry that a part of a note holds.  The first colon ends the key, so the value may
hold colons of its own; a part without a colon or without a key is no entry. -/
def entryOf? (part : List Char) : Option (String × String) :=
  let key := Text.trim (part.takeWhile (· != ':'))
  match part.dropWhile (· != ':') with
  | [] => none
  | _ :: value =>
    if key.isEmpty then none else some (String.ofList key, String.ofList (Text.trim value))

/-- The entries of a note, in order. -/
def entries (note : Note) : List (String × String) :=
  (note.text.toList.splitOnP isSeparator).filterMap entryOf?

end Note

end EventModel
