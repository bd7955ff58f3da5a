import EventModel.Text.Blank
import EventModel.Text.Reader

/-!
# Decimal integers

A natural number is written `0` or as a digit from 1 to 9 followed by digits, so it has one
written form only.  An unsigned integer is such a number below 2^32; a signed integer is
`0`, or an optional sign before a number other than `0`, within 32 bits.  White space around
the whole text is ignored, and nothing else may stand beside the number.  Where more of a text
follows, a number is read as far as its digits go.
-/

namespace EventModel.Text

/-- The digits that may lead a number of several digits. -/
def isLeadingDigit (c : Char) : Bool := c.isDigit && c != '0'

/-- A number without a leading zero, and not zero itself. -/
def positive? : List Char → Option Nat
  | [] => none
  | d :: ds =>
    if isLeadingDigit d && ds.all Char.isDigit then some (Nat.ofDigitChars 10 (d :: ds) 0) else none

/-- A number in its only decimal form. -/
def natural? (cs : List Char) : Option Nat :=
  if cs = ['0'] then some 0 else positive? cs

/-- A number with an optional sign; zero takes none. -/
def integer? : List Char → Option Int
  | '+' :: cs => (positive? cs).map Int.ofNat
  | '-' :: cs => (positive? cs).map fun n => -(n : Int)
  | cs => (natural? cs).map Int.ofNat

/-- A number below 2^32, with nothing around it. -/
def natural32? (cs : List Char) : Option UInt32 :=
  (natural? cs).bind fun n => if n < UInt32.size then some (UInt32.ofNat n) else none

/-- Takes a number in its only decimal form: all digits that follow one from 1 to 9, or a `0`. -/
def numeral : Reader :=
  .orElse (.andThen (.one isLeadingDigit) (.takeTill fun c => !c.isDigit)) (.char '0')

/-- Reads a number below 2^32 from the front of a text: the number, and what is left. -/
def readNatural32? (cs : List Char) : Option (UInt32 × List Char) :=
  (numeral.read? cs).bind fun reading => (natural32? reading.1).map (·, reading.2)

/-- An identifier or level: a number below 2^32, with any white space around it. -/
def unsigned? (cs : List Char) : Option UInt32 := natural32? (trim cs)

/-- A row or column: an integer of 32 bits, with any white space around it. -/
def signed? (cs : List Char) : Option Int32 :=
  (integer? (trim cs)).bind fun n =>
    if Int32.minValue.toInt ≤ n ∧ n ≤ Int32.maxValue.toInt then some (Int32.ofInt n) else none

end EventModel.Text
