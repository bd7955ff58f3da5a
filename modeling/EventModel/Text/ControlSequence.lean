/-!
# Control sequences

A text that is meant for a terminal may hold control characters, and sequences of characters
that start with an escape and steer the terminal instead of being shown.  Where there is no
terminal, only what would be shown is written (`strip`): a text is read character by character, and
each of them is shown or not according to how far a sequence has been read.
-/

namespace EventModel.Text.ControlSequence

/-- White space that is no space. -/
def isBreak (c : Char) : Bool := ['\t', '\n', '\x0c', '\r'].contains c

/-- Control characters are not shown, unless they are white space. -/
def isShown (c : Char) : Bool := (' ' ≤ c && c != '\x7f') || isBreak c

/-- How far a control sequence has been read. -/
inductive Place
  /-- After the escape. -/
  | escape
  /-- Between the escape and the last character of a short sequence. -/
  | intermediate
  /-- In the parameters of a control function. -/
  | parameters
  /-- At the start of a device control string. -/
  | deviceStart
  | deviceParameters
  | deviceIntermediate
  /-- In a string that is not shown, up to a string terminator. -/
  | body
  /-- In a command to the operating system, up to a bell. -/
  | command
deriving DecidableEq, Repr

/-- What the next character of a text is read as. -/
inductive Mode
  | text
  | inside (place : Place)
  /-- As text that stands inside of a sequence. -/
  | interrupted (place : Place)
deriving DecidableEq, Repr

/-- Whether a character is in a range. -/
def isWithin (first last c : Char) : Bool := first ≤ c && c ≤ last

/-- Whether one of the bytes of a character is a string terminator. -/
def holdsTerminator (c : Char) : Bool := (String.utf8EncodeChar c).contains 0x9c

namespace Place

/-- Whether white space is shown in the middle of a sequence. -/
def isInterruptible : Place → Bool
  | escape | intermediate | parameters => true
  | deviceStart | deviceParameters | deviceIntermediate | body | command => false

/-- What a character of a sequence leads to. -/
def next (place : Place) (c : Char) : Mode :=
  match place with
  | escape =>
    if isWithin ' ' '/' c then .inside intermediate
    else if c == '[' then .inside parameters
    else if c == ']' then .inside command
    else if c == 'P' then .inside deviceStart
    else if ['X', '^', '_'].contains c then .inside body
    else if isWithin '0' '~' c then .text
    else .inside escape
  | intermediate => if isWithin '0' '~' c then .text else .inside intermediate
  | parameters => if isWithin '@' '~' c then .text else .inside parameters
  | deviceStart =>
    if isWithin ' ' '/' c then .inside deviceIntermediate
    else if isWithin '0' '?' c then .inside deviceParameters
    else if isWithin '@' '~' c then .inside body
    else .inside deviceStart
  | deviceParameters =>
    if isWithin ' ' '/' c then .inside deviceIntermediate
    else if isWithin '<' '~' c then .inside body
    else .inside deviceParameters
  | deviceIntermediate =>
    if isWithin '0' '~' c then .inside body else .inside deviceIntermediate
  | body => if holdsTerminator c then .text else .inside body
  | command => if c == '\x07' then .text else .inside command

end Place

/-- Reads a character, and tells whether it is shown.  An escape starts a new sequence, and a
cancel or substitute character ends every sequence.  White space that interrupts a sequence
makes what follows text, until another control character takes the sequence up again or a
character beyond ASCII ends it. -/
def Mode.step (mode : Mode) (c : Char) : Mode × Bool :=
  if c == '\x1b' then (.inside .escape, false)
  else if ['\x18', '\x1a'].contains c then (.text, false)
  else
    match mode with
    | .text => (.text, isShown c)
    | .inside place =>
      if place.isInterruptible && isBreak c then (.interrupted place, true)
      else (place.next c, false)
    | .interrupted place =>
      if !isShown c then (place.next c, false)
      else if c ≤ '\x7f' then (.interrupted place, true)
      else (.text, true)

/-- The characters of a text that are shown. -/
def visible : Mode → List Char → List Char
  | _, [] => []
  | mode, c :: cs =>
    let (mode, isKept) := mode.step c
    if isKept then c :: visible mode cs else visible mode cs

/-- What is written of a text where there is no terminal. -/
def strip (text : String) : String := String.ofList (visible .text text.toList)

end EventModel.Text.ControlSequence
