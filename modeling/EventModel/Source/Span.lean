/-!
# Spans

A span is a half-open range of byte positions in a text.  It never runs backwards: a range
given with its ends exchanged is the empty span at its second end.
-/

namespace EventModel

/-- The bytes from `start` up to, not including, `stop`. -/
structure Span where
  start : Nat
  stop : Nat
  start_le_stop : start ≤ stop := by omega
deriving DecidableEq, Repr

namespace Span

/-- The span between two bounds; when they are reversed, the empty span at the second. -/
def ofBounds (first last : Nat) : Span where
  start := min first last
  stop := last

/-- The number of bytes covered. -/
def length (s : Span) : Nat := s.stop - s.start

/-- Whether no byte is covered. -/
def isEmpty (s : Span) : Bool := s.start == s.stop

/-- The span that two bounds, counted from the start of `s`, name inside `s`.  Whatever
would lie outside of `s` is cut off, so the result always lies within it. -/
def sub (s : Span) (first last : Nat) : Span where
  start := min (s.start + first) s.stop
  stop := max (min (s.start + first) s.stop) (min (s.start + last) s.stop)

theorem start_le_sub_start (s : Span) (first last : Nat) :
    s.start ≤ (s.sub first last).start := by
  have := s.start_le_stop
  simp only [sub]
  omega

theorem sub_stop_le_stop (s : Span) (first last : Nat) :
    (s.sub first last).stop ≤ s.stop := by
  simp only [sub]
  omega

/-- Bounds that fit into the span are not moved. -/
theorem sub_of_fits (s : Span) {first last : Nat} (h : first ≤ last)
    (fits : s.start + last ≤ s.stop) :
    (s.sub first last).start = s.start + first ∧ (s.sub first last).stop = s.start + last := by
  simp only [sub]
  omega

end Span

end EventModel
