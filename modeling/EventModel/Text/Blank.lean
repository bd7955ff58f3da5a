/-!
# White space

The white space of the language is the Unicode property White_Space, which is wider than
the space, tab and line breaks that `Char.isWhitespace` knows.  Trimming removes it from
the ends of a text and nowhere else.
-/

namespace EventModel.Text

/-- The characters with the Unicode property White_Space, in code point order. -/
def blanks : List Char :=
  ['\t', '\n', '\x0b', '\x0c', '\r', ' ', '\u0085', '\u00a0', '\u1680',
   '\u2000', '\u2001', '\u2002', '\u2003', '\u2004', '\u2005', '\u2006', '\u2007',
   '\u2008', '\u2009', '\u200a', '\u2028', '\u2029', '\u202f', '\u205f', '\u3000']

/-- A character is blank when it is white space in the sense of Unicode. -/
def isBlank (c : Char) : Bool := blanks.contains c

/-- Spaces and tabs are the only white space inside a directive or a flow. -/
def isSpaceOrTab (c : Char) : Bool := c == ' ' || c == '\t'

/-- Removes the white space at the start. -/
def trimStart (cs : List Char) : List Char := cs.dropWhile isBlank

/-- Removes the white space at the end. -/
def trimEnd (cs : List Char) : List Char := (cs.reverse.dropWhile isBlank).reverse

/-- Removes the white space at both ends. -/
def trim (cs : List Char) : List Char := trimEnd (trimStart cs)

theorem isBlank_iff_mem (c : Char) : isBlank c = true ↔ c ∈ blanks := by
  simp [isBlank]

@[simp] theorem trimStart_nil : trimStart [] = [] := rfl

@[simp] theorem trimEnd_nil : trimEnd [] = [] := rfl

@[simp] theorem trim_nil : trim [] = [] := rfl

end EventModel.Text
