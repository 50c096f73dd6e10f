/-!
# Source spans

A span is a half-open interval of source positions. Spans whose end does not lie after their start
are empty; nothing forbids an end before the start.
-/

namespace ScopeMachine

/-- Half-open interval of source positions. -/
structure Span where
  /-- First position inside. -/
  start : Nat
  /-- First position after. -/
  stop : Nat
deriving DecidableEq

namespace Span

/-- Span of code that comes from no source. -/
def dummy : Span := ⟨0, 0⟩

/-- Number of positions inside; none if the end lies before the start. -/
def length (span : Span) : Nat := span.stop - span.start

/-- Whether no position lies inside. -/
def isEmpty (span : Span) : Bool := span.stop ≤ span.start

/-- Smallest span that covers both. -/
def merge (left right : Span) : Span :=
  ⟨min left.start right.start, max left.stop right.stop⟩

/-- Written form: start and end with two dots between. -/
def text (span : Span) : String := s!"{span.start}..{span.stop}"

/-- Merging does not depend on the order. -/
theorem merge_comm (left right : Span) : left.merge right = right.merge left := by
  simp [merge, Nat.min_comm, Nat.max_comm]

/-- A span is empty exactly when its length is zero. -/
theorem isEmpty_iff_length_eq_zero (span : Span) : span.isEmpty ↔ span.length = 0 := by
  simp [isEmpty, length, Nat.sub_eq_zero_iff_le]

end Span

end ScopeMachine
