import EventModel.Toml.Value

/-!
# Scalars of TOML

Without quotation marks, a scalar is a Boolean, an integer, a float, or a date, a time or
both.  What follows the first digits of a text decides which of them it is.  Underscores may
separate the digits of a number.

An integer with underscores is taken for one by its first digits and by what stands around
the underscores.  Other characters may still be in it; then it is no error yet, but it has
no value.
-/

namespace EventModel.Toml.Scalar

/-! ## Digits and signs -/

/-- Splits off a sign. -/
def sign : List Char → Bool × List Char
  | '-' :: cs => (true, cs)
  | '+' :: cs => (false, cs)
  | cs => (false, cs)

/-- Whether a character is a hexadecimal digit. -/
def isHexDigit (c : Char) : Bool := "0123456789abcdefABCDEF".toList.contains c

/-- The value of digits in a base up to sixteen. -/
def ofDigits (base : Nat) (ds : List Char) : Nat :=
  ds.foldl (fun n d => base * n + "0123456789abcdef".toList.idxOf d.toLower) 0

/-- The characters of a number that are not underscores. -/
def withoutUnderscores (cs : List Char) : List Char := cs.filter (· != '_')

/-- Whether every underscore stands between two digits. -/
def separatesDigits (isDigit : Char → Bool) (cs : List Char) : Bool :=
  let groups := cs.splitOn '_'
  groups.tail.all (fun group => group.head?.any isDigit) &&
    groups.dropLast.all fun group => group.getLast?.any isDigit

/-! ## Integers -/

/-- The value of a decimal integer that may have a sign. -/
def decimalValue? (cs : List Char) : Option Int :=
  let (isNegative, ds) := sign cs
  if ds.isEmpty || !ds.all Char.isDigit then none
  else some (if isNegative then -(ofDigits 10 ds : Int) else ofDigits 10 ds)

/-- Reads a decimal integer, which has no leading zero. -/
def decimal? (cs : List Char) : Option Value :=
  let body := (sign cs).2
  if body.isEmpty || (body.head? == some '0' && body != ['0']) then none
  else if separatesDigits isHexDigit cs then
    some (.integer (decimalValue? (withoutUnderscores cs)))
  else none

/-- Reads an integer in another base after the letter that names it.  There may be no digit,
but then there is no value either. -/
def based? (base : Nat) (isDigit : Char → Bool) (cs : List Char) : Option Value :=
  let ds := withoutUnderscores cs
  if ds.all isDigit && separatesDigits isDigit cs then
    some (.integer (if ds.isEmpty then none else some (ofDigits base ds : Int)))
  else none

/-! ## Floats -/

/-- The smallest decimal that no longer rounds to a finite float of 64 bits. -/
def floatLimit : Nat := Nat.pow 2 1024 - Nat.pow 2 970

/-- Whether digits times a power of ten stay in the range of floats.  Powers far outside of
the range are decided by the number of digits alone. -/
def isInRange (ds : List Char) (exponent : Int) : Bool :=
  let ds := ds.dropWhile (· == '0')
  let magnitude := (ds.length : Int) + exponent
  if ds.isEmpty || magnitude ≤ 0 then true
  else if 400 < magnitude then false
  else if 0 ≤ exponent then decide (ofDigits 10 ds * Nat.pow 10 exponent.toNat < floatLimit)
  else decide (ofDigits 10 ds < floatLimit * Nat.pow 10 (-exponent).toNat)

/-- Takes the digits in front of a text, of which there must be one, and passes over the
underscores among them. -/
def takeDigits? (cs : List Char) : Option (List Char × List Char) :=
  let isPart (c : Char) : Bool := c.isDigit || c == '_'
  let ds := withoutUnderscores (cs.takeWhile isPart)
  if ds.isEmpty then none else some (ds, cs.dropWhile isPart)

/-- Takes the digits before the point, which have no leading zero. -/
def takeWhole? (cs : List Char) : Option (List Char × List Char) :=
  (takeDigits? cs).filter fun taken => cs.head? != some '0' || taken.1.length == 1

/-- Takes a point and the digits after it, if there is a point. -/
def takeFraction? : List Char → Option (List Char × List Char)
  | '.' :: cs => takeDigits? cs
  | cs => some ([], cs)

/-- Whether a character opens an exponent. -/
def isExponentMark (c : Char) : Bool := c == 'e' || c == 'E'

/-- Reads what is left of a float: an exponent or nothing. -/
def exponent? : List Char → Option Int
  | [] => some 0
  | mark :: cs =>
    let (isNegative, body) := sign cs
    match isExponentMark mark, takeDigits? body with
    | true, some (ds, []) => some (if isNegative then -(ofDigits 10 ds : Int) else ofDigits 10 ds)
    | _, _ => none

/-- Reads a float with a fraction or an exponent. -/
def float? (cs : List Char) : Option Value := do
  let (whole, rest) ← takeWhole? (sign cs).2
  let (fraction, rest) ← takeFraction? rest
  let exponent ← exponent? rest
  if separatesDigits Char.isDigit cs then
    some (.float (isInRange (whole ++ fraction) (exponent - fraction.length)))
  else none

/-! ## Dates and times -/

/-- Reads a number of a fixed number of digits. -/
def fixed? (count : Nat) (cs : List Char) : Option Nat :=
  if cs.length = count ∧ cs.all Char.isDigit then some (ofDigits 10 cs) else none

/-- Whether a year has a 29th of February. -/
def isLeapYear (year : Nat) : Bool :=
  year % 4 == 0 && (year % 100 != 0 || year % 400 == 0)

/-- The number of days of a month. -/
def daysIn (year month : Nat) : Nat :=
  if month = 2 then (if isLeapYear year then 29 else 28)
  else if [4, 6, 9, 11].contains month then 30 else 31

/-- Whether a text is a date. -/
def isDate (cs : List Char) : Bool :=
  match cs.splitOn '-' with
  | [year, month, day] =>
    match fixed? 4 year, fixed? 2 month, fixed? 2 day with
    | some y, some m, some d => 1 ≤ m && m ≤ 12 && 1 ≤ d && d ≤ daysIn y m
    | _, _, _ => false
  | _ => false

/-- Whether a text is a two-digit number up to a limit. -/
def isUpTo (limit : Nat) (cs : List Char) : Bool := (fixed? 2 cs).any (· ≤ limit)

/-- Whether a text is a number of seconds, with a fraction or without. -/
def isSeconds (cs : List Char) : Bool :=
  match cs.splitOn '.' with
  | [seconds] => isUpTo 60 seconds
  | [seconds, fraction] => isUpTo 60 seconds && !fraction.isEmpty && fraction.all Char.isDigit
  | _ => false

/-- Whether a text is a time of day.  Seconds may be left out. -/
def isTime (cs : List Char) : Bool :=
  match cs.splitOn ':' with
  | [hour, minute] => isUpTo 23 hour && isUpTo 59 minute
  | [hour, minute, seconds] => isUpTo 23 hour && isUpTo 59 minute && isSeconds seconds
  | _ => false

/-- Whether a text is the distance of a time zone, without its sign: hours and minutes as
in a time of day. -/
def isZoneDistance (cs : List Char) : Bool :=
  match cs.splitOn ':' with
  | [hours, minutes] => isUpTo 23 hours && isUpTo 59 minutes
  | _ => false

/-- Whether a text is a time of day, in a time zone or in none. -/
def isZonedTime (cs : List Char) : Bool :=
  let time := cs.takeWhile fun c => c.isDigit || c == ':' || c == '.'
  isTime time &&
    match cs.dropWhile fun c => c.isDigit || c == ':' || c == '.' with
    | [] => true
    | ['Z'] => true
    | ['z'] => true
    | '+' :: distance => isZoneDistance distance
    | '-' :: distance => isZoneDistance distance
    | _ => false

/-- Whether a text is a date, a time of day, or both with a `T` or a space between. -/
def isDateTime (cs : List Char) : Bool :=
  isDate cs || isTime cs ||
    (isDate (cs.take 10) &&
      match cs.drop 10 with
      | separator :: time => ['T', 't', ' '].contains separator && isZonedTime time
      | [] => false)

/-- Reads a date, a time or both. -/
def dateTime? (cs : List Char) : Option Value := if isDateTime cs then some .dateTime else none

/-! ## Telling them apart -/

/-- Reads a number or a date.  After the first digits a date or a time goes on with its
separator, a float has a point or an exponent somewhere, and an integer ends or goes on with
an underscore. -/
def number? (cs : List Char) : Option Value :=
  match (sign cs).2.dropWhile Char.isDigit with
  | [] => decimal? cs
  | '-' :: _ | ':' :: _ => dateTime? cs
  | c :: rest =>
    if (c :: rest).contains ' ' then none
    else if (c :: rest).any fun d => d == '.' || isExponentMark d then float? cs
    else if c == '_' then decimal? cs
    else none

/-- Reads a scalar.  Infinity and the absence of a number are floats in range. -/
def read? (cs : List Char) : Option Value :=
  if cs = "true".toList then some (.boolean true)
  else if cs = "false".toList then some (.boolean false)
  else if ["inf".toList, "nan".toList].contains (sign cs).2 then some (.float true)
  else
    match cs with
    | '0' :: 'x' :: ds => based? 16 isHexDigit ds
    | '0' :: 'o' :: ds => based? 8 (fun c => '0' ≤ c && c ≤ '7') ds
    | '0' :: 'b' :: ds => based? 2 (fun c => c == '0' || c == '1') ds
    | _ => number? cs

end EventModel.Toml.Scalar
