import EventModel.Text.Blank

/-!
# Fragments

A fragment is a stretch of a larger text together with the byte at which it starts.
Positions count bytes of the UTF-8 form, so a character may advance a position by one to
four.  Cutting a text at one-byte separators and trimming a fragment both keep track of
where the remaining characters stand.
-/

namespace EventModel.Text

/-- The number of bytes of a text in UTF-8. -/
def byteLength (cs : List Char) : Nat := cs.foldr (fun c bytes => c.utf8Size + bytes) 0

@[simp] theorem byteLength_nil : byteLength [] = 0 := rfl

@[simp] theorem byteLength_cons (c : Char) (cs : List Char) :
    byteLength (c :: cs) = c.utf8Size + byteLength cs := rfl

@[simp] theorem byteLength_append (as bs : List Char) :
    byteLength (as ++ bs) = byteLength as + byteLength bs := by
  induction as with
  | nil => rw [List.nil_append, byteLength_nil, Nat.zero_add]
  | cons a as ih => rw [List.cons_append, byteLength_cons, byteLength_cons, ih, Nat.add_assoc]

/-- A stretch of a text and the byte offset at which it starts. -/
structure Fragment where
  offset : Nat
  text : List Char
deriving DecidableEq, Repr

namespace Fragment

/-- The byte offset just after the fragment. -/
def stop (f : Fragment) : Nat := f.offset + byteLength f.text

/-- Gives up the white space at both ends; the offset moves past what is lost in front. -/
def trim (f : Fragment) : Fragment where
  offset := f.offset + byteLength (f.text.takeWhile isBlank)
  text := Text.trim f.text

/-- Consecutive pieces of a text as fragments, when one byte separates neighbours. -/
def locate (start : Nat) : List (List Char) → List Fragment
  | [] => []
  | piece :: pieces => ⟨start, piece⟩ :: locate (start + byteLength piece + 1) pieces

@[simp] theorem length_locate (start : Nat) (pieces : List (List Char)) :
    (locate start pieces).length = pieces.length := by
  induction pieces generalizing start with
  | nil => rfl
  | cons piece pieces ih => simp [locate, ih]

@[simp] theorem map_text_locate (start : Nat) (pieces : List (List Char)) :
    (locate start pieces).map Fragment.text = pieces := by
  induction pieces generalizing start with
  | nil => rfl
  | cons piece pieces ih => simp [locate, ih]

end Fragment

end EventModel.Text
