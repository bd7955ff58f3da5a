import EventModel.Toml.Scalar
import EventModel.Toml.Token

/-!
# TOML texts

A TOML text is a list of lines: headers of tables, and keys with their values, which belong
to the table of the last header.  Arrays and inline tables may run over several lines, and
may be nested up to a limit.
-/

namespace EventModel.Toml

/-- Reads something from the front of a list of tokens. -/
abbrev Reader := StateT (List Token) Option

namespace Reader

/-- How deep values may be nested, and how many parts a key may have. -/
def nestingLimit : Nat := 80

/-- The next token, which is not consumed. -/
def peek : Reader (Option Token) := fun tokens => some (tokens.head?, tokens)

/-- Consumes the next token. -/
def next : Reader Token := fun
  | [] => none
  | token :: tokens => some (token, tokens)

/-- Consumes one given token. -/
def expect (token : Token) : Reader Unit := do
  if (← next) = token then pure () else failure

/-- Whether a token is white space inside of a line. -/
def isBlank : Token → Bool
  | .blank _ => true
  | _ => false

/-- Passes over white space inside of a line. -/
def skipBlanks : Reader Unit := fun tokens => some ((), tokens.dropWhile isBlank)

/-- Passes over white space and line breaks. -/
def skipLines : Reader Unit :=
  fun tokens => some ((), tokens.dropWhile fun token => isBlank token || token == .newline)

/-- Consumes white space up to the end of the line, and the line break. -/
def endLine : Reader Unit := do
  skipBlanks
  match ← peek with
  | none => pure ()
  | some _ => expect .newline

/-! ## Keys -/

/-- Whether a character may stand in a key without quotation marks. -/
def isKeyChar (c : Char) : Bool := c.isAlphanum || c == '_' || c == '-'

/-- One part of a key. -/
def keyPart : Reader (List Char) := do
  match ← next with
  | .word text => if text.all isKeyChar then pure text else failure
  | .quoted text => pure text
  | _ => failure

/-- The further parts of a key, each after a dot; at most so many. -/
def moreKeyParts : Nat → Reader (List (List Char))
  | 0 => pure []
  | count + 1 => do
    skipBlanks
    match ← peek with
    | some .dot =>
      let _ ← next
      skipBlanks
      let part ← keyPart
      let parts ← moreKeyParts count
      pure (part :: parts)
    | _ => pure []

/-- A key: the path to a table, and the name in that table. -/
def key : Reader (List (List Char) × List Char) := do
  skipBlanks
  let first ← keyPart
  let others ← moreKeyParts (nestingLimit - 1)
  skipBlanks
  let parts := first :: others
  pure (parts.dropLast, parts.getLast?.getD first)

/-! ## Values -/

/-- Takes the text of a scalar without quotation marks: words, the dots after them, and the
white space between two words, as it stands between a date and a time.  No word could follow
a scalar in any other way. -/
def takeWords : List Token → List Char × List Token
  | .word text :: rest =>
    let (more, rest) := takeWords rest
    (text ++ more, rest)
  | .dot :: rest =>
    let (more, rest) := takeWords rest
    ('.' :: more, rest)
  | .blank gap :: .word text :: rest =>
    let (more, rest) := takeWords rest
    (gap ++ text ++ more, rest)
  | rest => ([], rest)

/-- Reads a scalar. -/
def scalar : Reader Value := fun tokens =>
  match tokens with
  | .quoted text :: rest => some (.text text, rest)
  | .multiline text :: rest => some (.text text, rest)
  | _ =>
    let (text, rest) := takeWords tokens
    (Scalar.read? text).map fun value => (value, rest)

/-- The items of an array after its opening bracket. -/
def items (value : Reader Value) : Nat → Reader (List Value)
  | 0 => failure
  | fuel + 1 => do
    skipLines
    if (← peek) = some .closeBracket then
      let _ ← next
      pure []
    else
      let item ← value
      skipLines
      match ← next with
      | .comma =>
        let others ← items value fuel
        pure (item :: others)
      | .closeBracket => pure [item]
      | _ => failure

/-- The entries of an inline table after its opening brace, added to those given.  The lines
may break around an entry and around its equals sign, but not in its key. -/
def pairs (value : Reader Value) : Nat → Entries → Reader Entries
  | 0, _ => failure
  | fuel + 1, entries => do
    skipLines
    if (← peek) = some .closeBrace then
      let _ ← next
      pure entries
    else
      let (path, name) ← key
      skipLines
      expect .equals
      skipLines
      let item ← value
      let entries ← StateT.lift (entries.insert? .inline path name item)
      skipLines
      match ← next with
      | .comma => pairs value fuel entries
      | .closeBrace => pure entries
      | _ => failure

/-- Reads a value with so many levels of nesting at most. -/
def value : Nat → Reader Value
  | 0 => scalar
  | depth + 1 => do
    match ← peek with
    | some .openBracket =>
      let _ ← next
      let fuel := (← get).length
      return .array (← items (value depth) (fuel + 1))
    | some .openBrace =>
      let _ ← next
      let fuel := (← get).length
      return .table .inline (← pairs (value depth) (fuel + 1) [])
    | _ => scalar

/-! ## Lines -/

/-- What has been read so far: the keys of the table to which further keys belong, and
everything that has been declared. -/
structure Progress where
  current : List (List Char) := []
  entries : Entries := []

/-- Puts a value under a dotted key into the current table. -/
def Progress.insert? (p : Progress) (path : List (List Char)) (name : List Char) (item : Value) :
    Option Progress :=
  let change? (_ : TableOrigin) (sub : Entries) : Option Entries :=
    sub.insert? .header path name item
  (p.entries.changeAt? false change? p.current .header).map fun entries => { p with entries }

/-- Reads the header of a table or of an element of an array of tables. -/
def header (p : Progress) : Reader Progress := do
  expect .openBracket
  if (← peek) = some .openBracket then
    let _ ← next
    let (path, name) ← key
    expect .closeBracket
    expect .closeBracket
    let entries ← StateT.lift (p.entries.declareElement? path name)
    pure ⟨path ++ [name], entries⟩
  else
    let (path, name) ← key
    expect .closeBracket
    let entries ← StateT.lift (p.entries.declareTable? path name)
    pure ⟨path ++ [name], entries⟩

/-- Reads a key with its value. -/
def assignment (p : Progress) : Reader Progress := do
  let (path, name) ← key
  expect .equals
  skipBlanks
  let item ← value nestingLimit
  StateT.lift (p.insert? path name item)

/-- Reads a line that is not empty. -/
def line (p : Progress) : Reader Progress := do
  let p ← if (← peek) = some .openBracket then header p else assignment p
  endLine
  pure p

/-- Reads lines until there are none left. -/
def lines : Nat → Progress → Reader Progress
  | 0, _ => failure
  | fuel + 1, p => do
    skipLines
    if (← peek).isNone then pure p
    else
      let p ← line p
      lines fuel p

end Reader

/-- Reads a TOML text.  A byte order mark in front of it is passed over. -/
def read? (source : String) : Option Entries :=
  let cs :=
    match source.toList with
    | '\ufeff' :: cs => cs
    | cs => cs
  (Token.scan cs).bind fun tokens =>
    (Reader.lines (tokens.length + 1) {} tokens).map fun result => result.1.entries

end EventModel.Toml
