/-!
# Spans of source text

Every token, every datum and every error says which part of the source it comes
from, as a half-open range of byte offsets into the UTF-8 text. A list covers
everything from its opening to its closing parenthesis, which is what `Span.merge`
computes from the spans of the two.
-/

namespace SmallLisp

/-- **A span**: the bytes from `start` up to, and not including, `stop`. -/
structure Span where
  /-- Offset of the first byte. -/
  start : Nat
  /-- Offset just after the last byte. -/
  stop : Nat
deriving DecidableEq

namespace Span

/-- The span `0..0`, carried by what no source text produced. -/
def none : Span := ⟨0, 0⟩

instance : Inhabited Span := ⟨none⟩

/-- The smallest span that covers both. -/
def merge (a b : Span) : Span := ⟨min a.start b.start, max a.stop b.stop⟩

/-- The text of a span, as error messages give it: `start..stop`. -/
def render (s : Span) : String := toString s.start ++ ".." ++ toString s.stop

theorem merge_comm (a b : Span) : a.merge b = b.merge a := by
  simp [merge, Nat.min_comm, Nat.max_comm]

theorem merge_assoc (a b c : Span) : (a.merge b).merge c = a.merge (b.merge c) := by
  simp [merge, Nat.min_assoc, Nat.max_assoc]

@[simp]
theorem merge_self (a : Span) : a.merge a = a := by simp [merge]

end Span

end SmallLisp
