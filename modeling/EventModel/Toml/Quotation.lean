import EventModel.Text.Blank

/-!
# Quotations of TOML

A text is quoted in single or double quotes, on one line, or over several lines between three
quotes and three quotes.  Double quotes allow for escapes.  A quotation is read in steps, each
of which leaves less to be read (`length_rest_lt`), and so does a whole quotation
(`length_lt_of_read?`).
-/

namespace EventModel.Toml

/-- Control characters other than the tab may not be written as they are. -/
def isControl (c : Char) : Bool := (c.toNat < 0x20 && c != '\t') || c.toNat == 0x7f

/-- The ways to quote a text. -/
inductive Quotation
  | literal
  | basic
  | multilineLiteral
  | multilineBasic
deriving DecidableEq, Repr

namespace Quotation

/-! ## Escapes -/

/-- The value of a hexadecimal digit. -/
def hexDigit? (c : Char) : Option Nat :=
  if c.isDigit then some (c.toNat - '0'.toNat)
  else if 'a' ≤ c ∧ c ≤ 'f' then some (c.toNat - 'a'.toNat + 10)
  else if 'A' ≤ c ∧ c ≤ 'F' then some (c.toNat - 'A'.toNat + 10)
  else none

/-- The character whose code point is written with some hexadecimal digits. -/
def ofHexDigits? (digits : List Char) : Option Char :=
  (digits.mapM hexDigit?).bind fun values =>
    let code := values.foldl (fun n d => 16 * n + d) 0
    if code.isValidChar then some (Char.ofNat code) else none

/-- Reads a code point of a fixed number of digits. -/
def codePoint? (count : Nat) (cs : List Char) : Option (Char × List Char) :=
  let digits := cs.take count
  if digits.length = count then (ofHexDigits? digits).map fun c => (c, cs.drop count) else none

/-- Reads what follows a backslash. -/
def escape? : List Char → Option (Char × List Char)
  | 'b' :: cs => some ('\x08', cs)
  | 't' :: cs => some ('\t', cs)
  | 'n' :: cs => some ('\n', cs)
  | 'f' :: cs => some ('\x0c', cs)
  | 'r' :: cs => some ('\r', cs)
  | 'e' :: cs => some ('\x1b', cs)
  | '"' :: cs => some ('"', cs)
  | '\\' :: cs => some ('\\', cs)
  | 'x' :: cs => codePoint? 2 cs
  | 'u' :: cs => codePoint? 4 cs
  | 'U' :: cs => codePoint? 8 cs
  | _ => none

theorem length_le_of_codePoint? {count : Nat} {cs rest : List Char} {c : Char}
    (h : codePoint? count cs = some (c, rest)) : rest.length ≤ cs.length := by
  unfold codePoint? at h
  simp only at h
  split at h
  · obtain ⟨_, _, hrest⟩ := Option.map_eq_some_iff.1 h
    rw [← (Prod.mk.inj hrest).2, List.length_drop]
    exact Nat.sub_le _ _
  · exact absurd h (by simp)

theorem length_lt_of_escape? {cs rest : List Char} {c : Char}
    (h : escape? cs = some (c, rest)) : rest.length < cs.length := by
  unfold escape? at h
  split at h
  case h_9 | h_10 | h_11 => exact Nat.lt_succ_of_le (length_le_of_codePoint? h)
  case h_12 => exact absurd h (by simp)
  all_goals exact (Prod.mk.inj (Option.some.inj h)).2 ▸ Nat.lt_succ_self _

/-- Drops the line break after a backslash and all white space that follows. -/
def dropContinuation : List Char → List Char
  | ' ' :: cs => dropContinuation cs
  | '\t' :: cs => dropContinuation cs
  | '\n' :: cs => dropContinuation cs
  | '\r' :: '\n' :: cs => dropContinuation cs
  | cs => cs

theorem length_dropContinuation_le (cs : List Char) :
    (dropContinuation cs).length ≤ cs.length := by
  fun_induction dropContinuation cs with
  | case1 cs ih => exact Nat.le_succ_of_le ih
  | case2 cs ih => exact Nat.le_succ_of_le ih
  | case3 cs ih => exact Nat.le_succ_of_le ih
  | case4 cs ih => exact Nat.le_succ_of_le (Nat.le_succ_of_le ih)
  | case5 cs => exact Nat.le_refl _

/-- Whether a line ends here, apart from spaces and tabs. -/
def endsLine (cs : List Char) : Bool :=
  match cs.dropWhile Text.isSpaceOrTab with
  | '\n' :: _ => true
  | '\r' :: '\n' :: _ => true
  | _ => false

/-! ## Steps -/

/-- One step through a quotation: a character of the text, something that stands for none, or
the end, up to which there may be some last characters. -/
inductive Step
  | char (c : Char) (rest : List Char)
  | skip (rest : List Char)
  | close (tail : List Char) (rest : List Char)

/-- What is left to be read after a step. -/
def Step.rest : Step → List Char
  | .char _ rest => rest
  | .skip rest => rest
  | .close _ rest => rest

/-- The next character, if it may be written as it is. -/
def plainStep? : List Char → Option Step
  | c :: cs => if isControl c then none else some (.char c cs)
  | [] => none

/-- The next character of a text that may run over several lines. -/
def lineStep? : List Char → Option Step
  | '\n' :: cs => some (.char '\n' cs)
  | '\r' :: '\n' :: cs => some (.char '\n' cs)
  | cs => plainStep? cs

/-- Reads an escape after its backslash. -/
def escapeStep? (cs : List Char) : Option Step :=
  (escape? cs).map fun (c, rest) => .char c rest

/-- Closes a quotation over several lines; the quotes of which there are more than three
belong to the text. -/
def closeMultiline? (quote : Char) (cs : List Char) : Option Step :=
  match (cs.takeWhile (· == quote)).length with
  | 3 => some (.close [] (cs.drop 3))
  | 4 => some (.close [quote] (cs.drop 4))
  | n => if 5 ≤ n then some (.close [quote, quote] (cs.drop 5)) else none

/-- One step through a quotation. -/
def step? (q : Quotation) (cs : List Char) : Option Step :=
  match q, cs with
  | .literal, '\'' :: rest => some (.close [] rest)
  | .literal, _ => plainStep? cs
  | .basic, '"' :: rest => some (.close [] rest)
  | .basic, '\\' :: rest => escapeStep? rest
  | .basic, _ => plainStep? cs
  | .multilineLiteral, _ => (closeMultiline? '\'' cs).or (lineStep? cs)
  | .multilineBasic, '\\' :: rest =>
    if endsLine rest then some (.skip (dropContinuation rest)) else escapeStep? rest
  | .multilineBasic, _ => (closeMultiline? '"' cs).or (lineStep? cs)

theorem length_lt_of_plainStep? {cs : List Char} {s : Step} (h : plainStep? cs = some s) :
    s.rest.length < cs.length := by
  unfold plainStep? at h
  split at h
  · split at h
    · exact absurd h (by simp)
    · exact Option.some.inj h ▸ Nat.lt_succ_self _
  · exact absurd h (by simp)

theorem length_lt_of_lineStep? {cs : List Char} {s : Step} (h : lineStep? cs = some s) :
    s.rest.length < cs.length := by
  unfold lineStep? at h
  split at h
  · exact Option.some.inj h ▸ Nat.lt_succ_self _
  · exact Option.some.inj h ▸ Nat.lt_succ_of_lt (Nat.lt_succ_self _)
  · exact length_lt_of_plainStep? h

theorem length_lt_of_escapeStep? {cs : List Char} {s : Step} (h : escapeStep? cs = some s) :
    s.rest.length < cs.length := by
  obtain ⟨⟨c, rest⟩, hread, rfl⟩ := Option.map_eq_some_iff.1 h
  exact length_lt_of_escape? hread

theorem length_lt_of_closeMultiline? {quote : Char} {cs : List Char} {s : Step}
    (h : closeMultiline? quote cs = some s) : s.rest.length < cs.length := by
  have hle : (cs.takeWhile (· == quote)).length ≤ cs.length :=
    List.Sublist.length_le (List.takeWhile_sublist _)
  unfold closeMultiline? at h
  split at h
  · rw [← Option.some.inj h, Step.rest, List.length_drop]
    omega
  · rw [← Option.some.inj h, Step.rest, List.length_drop]
    omega
  · split at h
    · rw [← Option.some.inj h, Step.rest, List.length_drop]
      omega
    · exact absurd h (by simp)

/-- A step leaves less to be read. -/
theorem length_rest_lt {q : Quotation} {cs : List Char} {s : Step} (h : q.step? cs = some s) :
    s.rest.length < cs.length := by
  unfold step? at h
  split at h
  · exact Option.some.inj h ▸ Nat.lt_succ_self _
  · exact length_lt_of_plainStep? h
  · exact Option.some.inj h ▸ Nat.lt_succ_self _
  · exact Nat.lt_succ_of_lt (length_lt_of_escapeStep? h)
  · exact length_lt_of_plainStep? h
  · rcases Option.or_eq_some_iff.1 h with hclose | ⟨_, hline⟩
    · exact length_lt_of_closeMultiline? hclose
    · exact length_lt_of_lineStep? hline
  · split at h
    · exact Option.some.inj h ▸ Nat.lt_succ_of_le (length_dropContinuation_le _)
    · exact Nat.lt_succ_of_lt (length_lt_of_escapeStep? h)
  · rcases Option.or_eq_some_iff.1 h with hclose | ⟨_, hline⟩
    · exact length_lt_of_closeMultiline? hclose
    · exact length_lt_of_lineStep? hline

/-! ## Whole quotations -/

/-- Reads a quotation from after its opening quotes to its end. -/
def read? (q : Quotation) (cs : List Char) : Option (List Char × List Char) :=
  match h : q.step? cs with
  | none => none
  | some (.close tail rest) => some (tail, rest)
  | some (.char c rest) =>
    have : rest.length < cs.length := length_rest_lt h
    (q.read? rest).map fun (text, after) => (c :: text, after)
  | some (.skip rest) =>
    have : rest.length < cs.length := length_rest_lt h
    q.read? rest
termination_by cs.length
decreasing_by all_goals assumption

/-- A quotation leaves less to be read. -/
theorem length_lt_of_read? {q : Quotation} {cs text rest : List Char}
    (h : q.read? cs = some (text, rest)) : rest.length < cs.length := by
  fun_induction q.read? cs generalizing text with
  | case1 => exact absurd h (by simp)
  | case2 cs tail rest' hstep =>
    rw [← (Prod.mk.inj (Option.some.inj h)).2]
    exact length_rest_lt hstep
  | case3 cs c rest' hstep hlt ih =>
    obtain ⟨⟨more, after⟩, hread, hpair⟩ := Option.map_eq_some_iff.1 h
    obtain rfl : after = rest := (Prod.mk.inj hpair).2
    exact Nat.lt_trans (ih hread) hlt
  | case4 cs rest' hstep hlt ih => exact Nat.lt_trans (ih h) hlt

end Quotation

end EventModel.Toml
