import SmallLisp.Datum.Basic

/-!
# Two equalities of data

The equality of the language, `SmallLisp.Datum.sameValue`, asks whether two values
are alike wherever they come from: spans play no part in it. The equality of nodes,
`SmallLisp.Datum.sameNode`, asks for equal spans as well, at every depth;
`SmallLisp.Datum.sameShape` leaves out the span of the two data themselves and still
compares those of their elements.

In all of them numbers are compared as doubles, primitives are equal when they are
the same primitive and closures when they have the same identity.
-/

namespace SmallLisp

namespace Datum

/-! ### The equality of the language -/

mutual

/-- **Equality of values**, blind to spans. -/
def sameValue : Datum → Datum → Bool
  | .atom a _, .atom b _ => a.same b
  | .list as _, .list bs _ => sameValues as bs
  | .primitive p _, .primitive q _ => p == q
  | .closure i _ _ _ _, .closure j _ _ _ _ => i == j
  | _, _ => false

/-- Equality of lists of values: as many of them, and equal one by one. -/
def sameValues : List Datum → List Datum → Bool
  | [], [] => true
  | a :: as, b :: bs => sameValue a b && sameValues as bs
  | _, _ => false

end

@[simp]
theorem sameValue_withSpan_left (s : Span) (a b : Datum) :
    sameValue (a.withSpan s) b = sameValue a b := by
  cases a <;> cases b <;> rfl

@[simp]
theorem sameValue_withSpan_right (s : Span) (a b : Datum) :
    sameValue a (b.withSpan s) = sameValue a b := by
  cases a <;> cases b <;> rfl

/-! ### The equality of nodes -/

mutual

/-- Equality of everything but the two outermost spans. -/
def sameShape : Datum → Datum → Bool
  | .atom a _, .atom b _ => a.same b
  | .list as _, .list bs _ => sameNodes as bs
  | .primitive p _, .primitive q _ => p == q
  | .closure i _ _ _ _, .closure j _ _ _ _ => i == j
  | _, _ => false

/-- Equality of lists of nodes, spans included. -/
def sameNodes : List Datum → List Datum → Bool
  | [], [] => true
  | a :: as, b :: bs => sameShape a b && a.span == b.span && sameNodes as bs
  | _, _ => false

end

/-- **Equality of nodes**: spans count at every depth. -/
def sameNode (a b : Datum) : Bool := sameShape a b && a.span == b.span

end Datum

end SmallLisp
