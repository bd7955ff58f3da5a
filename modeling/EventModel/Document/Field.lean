import EventModel.Source.Line
import EventModel.Text.Reader

/-!
# Fields

Some payloads list fields, which commas separate.  A comma between double quotes is part of
its field, and a quote that is never closed reaches to the end of the payload.  There is
always at least one field.
-/

namespace EventModel.Document

open Text (Reader)

/-- Reads a run in double quotes, up to the quote that closes it or to the end. -/
def quotedRun : Reader :=
  .andThen (.char '"') (.andThen (.takeTill (· == '"')) (.optional (.char '"')))

/-- Reads a run up to the next comma or double quote. -/
def bareRun : Reader := .nonempty (.takeTill fun c => c == ',' || c == '"')

/-- Reads a field: runs in quotes and others, in any order. -/
def field : Reader := .repeated (.orElse quotedRun bareRun)

/-- The pieces of a payload that commas separate, if they make up the whole payload. -/
def pieces? (payload : List Char) : Option (List (List Char)) :=
  match Reader.readSeparated? field ',' payload with
  | some (pieces, []) => some pieces
  | _ => none

/-- The fields of a payload, trimmed, each at its place in the payload.  A payload that does not
consist of fields would count as one. -/
def fields (payload : List Char) : List Text.Fragment :=
  (Text.Fragment.locate 0 ((pieces? payload).getD [payload])).map Text.Fragment.trim

/-- Drops a double quote at the start. -/
def dropQuote : List Char → List Char
  | '"' :: cs => cs
  | cs => cs

/-- Drops a double quote at the start and one at the end, each if it is there. -/
def unquote (text : List Char) : List Char := (dropQuote (dropQuote text).reverse).reverse

end EventModel.Document
