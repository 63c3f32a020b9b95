/-!
# Spans

A span is a range of byte offsets into a text. Every token and every tree node carries one, and
diagnostics point at its start.
-/

namespace SqlPredicates

/-- The bytes from `start` up to, and without, `stop`. -/
structure Span where
  start : Nat
  stop : Nat
  deriving DecidableEq, Repr, Inhabited

namespace Span

/-- The empty span at an offset. -/
def point (offset : Nat) : Span := ⟨offset, offset⟩

/-- The smallest span that holds both spans. -/
def cover (a b : Span) : Span := ⟨min a.start b.start, max a.stop b.stop⟩

/-- The number of bytes. -/
def length (s : Span) : Nat := s.stop - s.start

/-- Whether the span holds no byte. -/
def isEmpty (s : Span) : Bool := s.start == s.stop

/-- The span as `start..stop`. -/
def render (s : Span) : String := toString s.start ++ ".." ++ toString s.stop

/-- The span moved to the right by `n` bytes. -/
def shift (n : Nat) (s : Span) : Span := ⟨s.start + n, s.stop + n⟩

end Span

end SqlPredicates
