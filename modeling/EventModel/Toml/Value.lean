/-!
# Values of TOML

A TOML text holds a table of keys with values.  A table remembers how it came about, since
that decides what may still be added to it: a table that headers only lead through may be
declared later on, by a header of its own or by dotted keys, one declared by dotted keys may
be extended by such keys, one declared under its own header or written inline is complete.
-/

namespace EventModel.Toml

/-- How a table came about. -/
inductive TableOrigin
  | implicit
  | header
  | dotted
  | inline
deriving DecidableEq, Repr

/-- A value.  Of numbers and dates only what matters to a reader of settings is kept: the
integer, unless what is written only begins like one, whether a float is in range, and that
a date is one. -/
inductive Value
  | boolean (value : Bool)
  | integer (value : Option Int)
  | float (inRange : Bool)
  | text (value : List Char)
  | dateTime
  | array (items : List Value)
  | table (origin : TableOrigin) (entries : List (List Char × Value))
  | tables (elements : List (List (List Char × Value)))
deriving Repr

/-- Keys with their values, in the order in which they were added. -/
abbrev Entries := List (List Char × Value)

namespace Entries

/-- The value of a key. -/
def get? (es : Entries) (key : List Char) : Option Value :=
  (es.find? (·.1 == key)).map Prod.snd

/-- Adds a key, which must be new. -/
def add? (es : Entries) (key : List Char) (value : Value) : Option Entries :=
  if (es.get? key).isNone then some (es ++ [(key, value)]) else none

/-- Gives a key that is present another value. -/
def replace (es : Entries) (key : List Char) (value : Value) : Entries :=
  es.map fun e => if e.1 == key then (key, value) else e

/-- Whether a table may be gone through on the way to another one. -/
def isOpen (byDots : Bool) : TableOrigin → Bool
  | .inline => false
  | .header => !byDots
  | .implicit | .dotted => true

/-- How a table counts after a path has gone through it: dotted keys declare every table
that they go through. -/
def passed (byDots : Bool) (origin : TableOrigin) : TableOrigin :=
  if byDots then .dotted else origin

/-- Changes the table at the end of a path of keys.  Tables that the path needs are made on
the way, and of an array of tables the last is meant. -/
def changeAt? (byDots : Bool) (change? : TableOrigin → Entries → Option Entries) :
    List (List Char) → TableOrigin → Entries → Option Entries
  | [], origin, es => change? origin es
  | key :: path, _, es =>
    match es.get? key with
    | none =>
      let origin := passed byDots .implicit
      (changeAt? byDots change? path origin []).map fun sub => es ++ [(key, .table origin sub)]
    | some (.table origin sub) =>
      if isOpen byDots origin then
        let origin := passed byDots origin
        (changeAt? byDots change? path origin sub).map fun sub =>
          es.replace key (.table origin sub)
      else none
    | some (.tables elements) =>
      (changeAt? byDots change? path .header (elements.getLast?.getD [])).map fun last =>
        es.replace key (.tables (elements.dropLast ++ [last]))
    | some _ => none

/-- Puts a value under a dotted key into a table.  A table that the dots lead to must be one
declared by dotted keys, which the last of an array of tables is not. -/
def insert? (es : Entries) (origin : TableOrigin) (path : List (List Char))
    (key : List Char) (value : Value) : Option Entries :=
  let change? (target : TableOrigin) (sub : Entries) : Option Entries :=
    if path.isEmpty || target == .dotted then sub.add? key value else none
  changeAt? true change? path origin es

/-- Declares a table under a header.  It must be new, or so far only lead to others. -/
def declareTable? (es : Entries) (path : List (List Char)) (key : List Char) : Option Entries :=
  let change? (_ : TableOrigin) (sub : Entries) : Option Entries :=
    match sub.get? key with
    | none => some (sub ++ [(key, .table .header [])])
    | some (.table .implicit inner) => some (sub.replace key (.table .header inner))
    | some _ => none
  changeAt? false change? path .header es

/-- Declares one more element of an array of tables. -/
def declareElement? (es : Entries) (path : List (List Char)) (key : List Char) :
    Option Entries :=
  let change? (_ : TableOrigin) (sub : Entries) : Option Entries :=
    match sub.get? key with
    | none => some (sub ++ [(key, .tables [[]])])
    | some (.tables elements) => some (sub.replace key (.tables (elements ++ [[]])))
    | some _ => none
  changeAt? false change? path .header es

end Entries

end EventModel.Toml
