import EventModel.Text.Blank
import EventModel.Toml.Quotation

/-!
# Tokens of TOML

A TOML text is divided into tokens before anything else.  Comments have no token; white
space and line breaks have one, because they matter in places.  Between the marks, the
quotations and the white space stand words, whose characters are only looked at when it is
known what a word is used for.  A text with an open quotation, a control character in a
quotation or in a comment, or a carriage return that ends no line has no tokens.
-/

namespace EventModel.Toml

/-- The smallest parts of a TOML text. -/
inductive Token
  | blank (text : List Char)
  | newline
  | dot
  | equals
  | comma
  | openBracket
  | closeBracket
  | openBrace
  | closeBrace
  | word (text : List Char)
  | quoted (text : List Char)
  | multiline (text : List Char)
deriving DecidableEq, Repr

namespace Token

/-- A word runs up to white space, a line break, a comment or a mark; a quotation mark does
not end it. -/
def isWordChar (c : Char) : Bool := !" \t\r\n#.=,[]\x7b\x7d".toList.contains c

/-! ## Division into tokens -/

/-- A line break right after the opening quotes does not belong to the text. -/
def dropNewline : List Char → List Char
  | '\n' :: cs => cs
  | '\r' :: '\n' :: cs => cs
  | cs => cs

/-- Reads a quotation after its opening quotes, as a given kind of token. -/
def quoted? (q : Quotation) (token : List Char → Token) (cs : List Char) :
    Option (Option Token × List Char) :=
  (q.read? cs).map fun (text, rest) => (some (token text), rest)

/-- The text of a comment.  A carriage return before the line feed is part of the line break. -/
def commentText (cs : List Char) : List Char :=
  let line := cs.takeWhile (· != '\n')
  if line.getLast? == some '\r' && cs.contains '\n' then line.dropLast else line

/-- Reads a comment up to the end of its line. -/
def comment? (cs : List Char) : Option (Option Token × List Char) :=
  if (commentText cs).any isControl then none else some (none, cs.dropWhile (· != '\n'))

/-- Takes the characters of a kind from the front of a text for a token. -/
def takeToken (isPart : Char → Bool) (token : List Char → Token) (cs : List Char) :
    Option Token × List Char :=
  (some (token (cs.takeWhile isPart)), cs.dropWhile isPart)

/-- Reads the first token, or passes over a comment. -/
def next? (cs : List Char) : Option (Option Token × List Char) :=
  match cs with
  | '\n' :: rest => some (some .newline, rest)
  | '\r' :: '\n' :: rest => some (some .newline, rest)
  | '#' :: rest => comment? rest
  | '.' :: rest => some (some .dot, rest)
  | '=' :: rest => some (some .equals, rest)
  | ',' :: rest => some (some .comma, rest)
  | '[' :: rest => some (some .openBracket, rest)
  | ']' :: rest => some (some .closeBracket, rest)
  | '{' :: rest => some (some .openBrace, rest)
  | '}' :: rest => some (some .closeBrace, rest)
  | '"' :: '"' :: '"' :: rest => quoted? .multilineBasic .multiline (dropNewline rest)
  | '\'' :: '\'' :: '\'' :: rest => quoted? .multilineLiteral .multiline (dropNewline rest)
  | '"' :: rest => quoted? .basic .quoted rest
  | '\'' :: rest => quoted? .literal .quoted rest
  | c :: _ =>
    if Text.isSpaceOrTab c then some (takeToken Text.isSpaceOrTab .blank cs)
    else if isWordChar c then some (takeToken isWordChar .word cs)
    else none
  | [] => none

theorem length_dropNewline_le (cs : List Char) : (dropNewline cs).length ≤ cs.length := by
  unfold dropNewline
  split
  · exact Nat.le_succ _
  · exact Nat.le_succ_of_le (Nat.le_succ _)
  · exact Nat.le_refl _

theorem length_lt_of_quoted? {q : Quotation} {token : List Char → Token} {cs : List Char}
    {read : Option Token × List Char} (h : quoted? q token cs = some read) :
    read.2.length < cs.length := by
  obtain ⟨⟨text, rest⟩, hread, rfl⟩ := Option.map_eq_some_iff.1 h
  exact Quotation.length_lt_of_read? hread

theorem length_le_of_comment? {cs : List Char} {read : Option Token × List Char}
    (h : comment? cs = some read) : read.2.length ≤ cs.length := by
  unfold comment? at h
  split at h
  · exact absurd h (by simp)
  · exact Option.some.inj h ▸ (List.dropWhile_suffix _).length_le

theorem length_takeToken_lt {isPart : Char → Bool} {c : Char} (h : isPart c = true)
    (token : List Char → Token) (cs : List Char) :
    (takeToken isPart token (c :: cs)).2.length < (c :: cs).length := by
  rw [takeToken, List.dropWhile_cons_of_pos h]
  exact Nat.lt_succ_of_le (List.dropWhile_suffix _).length_le

/-- A token or comment leaves less to be read. -/
theorem length_lt_of_next? {cs : List Char} {read : Option Token × List Char}
    (h : next? cs = some read) : read.2.length < cs.length := by
  unfold next? at h
  split at h
  case h_2 => exact Option.some.inj h ▸ Nat.lt_succ_of_lt (Nat.lt_succ_self _)
  case h_3 => exact Nat.lt_succ_of_le (length_le_of_comment? h)
  case h_11 | h_12 =>
    exact Nat.lt_succ_of_lt (Nat.lt_succ_of_lt (Nat.lt_succ_of_lt
      (Nat.lt_of_lt_of_le (length_lt_of_quoted? h) (length_dropNewline_le _))))
  case h_13 | h_14 => exact Nat.lt_succ_of_lt (length_lt_of_quoted? h)
  case h_15 =>
    split at h
    case isTrue hblank => exact Option.some.inj h ▸ length_takeToken_lt hblank _ _
    case isFalse =>
      split at h
      case isTrue hword => exact Option.some.inj h ▸ length_takeToken_lt hword _ _
      case isFalse => exact absurd h (by simp)
  case h_16 => exact absurd h (by simp)
  all_goals exact Option.some.inj h ▸ Nat.lt_succ_self _

/-- The tokens of a text. -/
def scan (cs : List Char) : Option (List Token) :=
  if cs.isEmpty then some []
  else
    match h : next? cs with
    | none => none
    | some (token, rest) =>
      have : rest.length < cs.length := length_lt_of_next? h
      (scan rest).map (token.toList ++ ·)
termination_by cs.length
decreasing_by assumption

end Token

end EventModel.Toml
