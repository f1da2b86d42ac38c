import SmallLisp.Number.Decimal

/-!
# The shortest decimal that reads back

A finite double is written in positional notation, with as few digits as it takes to
read back the same double. The search goes over the grids of multiples of a power of
ten, from coarse to fine: on each grid only the two neighbours of the exact value
can read back, and the first grid where one does gives the digits. Where both do,
the nearer one is taken, the upper one of two that are equally near.

* `SmallLisp.Positional` – a decimal with a fixed number of places;
* `SmallLisp.Positional.onGrid?` – the point of one grid that reads back;
* `SmallLisp.Positional.shortest` – **the shortest decimal of a magnitude**;
* `SmallLisp.renderNumber` – the text of any double.
-/

namespace SmallLisp

-- `b ^ e` is the power of natural numbers, also where a more general one is known
attribute [local instance (high)] instPowNat

/-- An unsigned decimal in positional notation: `units / 10 ^ places`, with `places`
digits after the point. -/
structure Positional where
  /-- All digits, as one number. -/
  units : Nat
  /-- How many of the digits stand after the point. -/
  places : Nat
deriving DecidableEq

namespace Positional

/-- The digits after the point: the last `places` of them, with leading zeros. -/
def fractionDigits (p : Positional) : List Char :=
  let ds := Nat.toDigits 10 (p.units % 10 ^ p.places)
  List.replicate (p.places - ds.length) '0' ++ ds

/-- **The text of a positional decimal**; a whole number has no point. -/
def render (p : Positional) : List Char :=
  if p.places = 0 then Nat.toDigits 10 p.units
  else Nat.toDigits 10 (p.units / 10 ^ p.places) ++ '.' :: p.fractionDigits

/-- The magnitude that the text of a positional decimal reads as. -/
def magnitude (p : Positional) : Nat := Decimal.magnitude p.units (-(p.places : Int))

/-- The multiple `k · 10 ^ e` in positional notation. -/
def ofGrid (k : Nat) (e : Int) : Positional := ⟨k * 10 ^ e.toNat, (-e).toNat⟩

/-! ### The search -/

/-- The point of the grid of multiples of `10 ^ e` that reads back as the stored
magnitude `b`: of the two neighbours of its exact value, the one that reads back,
and the nearer one if both do. -/
def onGrid? (b : Nat) (e : Int) : Option Positional :=
  let (n, d) := Double.fraction b
  let n := n * 10 ^ (-e).toNat
  let d := d * 10 ^ e.toNat
  let below := ofGrid (n / d) e
  let above := ofGrid (n / d + 1) e
  if below.magnitude = b ∧ (above.magnitude = b → 2 * (n % d) < d) then some below
  else if above.magnitude = b then some above
  else none

/-- What `onGrid?` finds reads back. -/
theorem magnitude_of_onGrid? {b : Nat} {e : Int} {p : Positional} (h : onGrid? b e = some p) :
    p.magnitude = b := by
  simp only [onGrid?] at h
  split at h
  · next hb =>
    cases h
    exact hb.1
  · split at h
    · next ha =>
      cases h
      exact ha
    · cases h

/-- An exponent `e` with `10 ^ e` above the stored magnitude `b`, and not far above:
`30103 / 100000` is just above the logarithm of two. -/
def coarsestExponent (b : Nat) : Int :=
  let e : Int := (Double.significand b).log2 + Double.exponent b + 1
  e * 30103 / 100000 + 2

/-- All digits of a stored magnitude. -/
def allDigits (b : Nat) : Positional :=
  let q := Double.exponent b
  ⟨Double.significand b * 2 ^ q.toNat * 5 ^ (-q).toNat, (-q).toNat⟩

/-- **The shortest decimal that reads back** as a finite stored magnitude. Seventeen
digits tell any two doubles apart, so a grid at most that much finer than the
coarsest one has a point; all digits stand in where none would. -/
def shortest (b : Nat) : Positional :=
  if b = 0 then ⟨0, 0⟩
  else
    ((List.range 24).findSome? fun i : Nat => onGrid? b (coarsestExponent b - i)).getD
      (allDigits b)

end Positional

/-! ### The text of a double -/

/-- **The text of a double**: the shortest decimal that reads back, in positional
notation, with a minus sign if the sign bit is set. The infinities and the value
that is not a number have words of their own, and the sign of the latter is not
shown. -/
def renderNumber (x : Float) : String :=
  let b := Double.magnitude x
  if Double.infinity < b then "nan"
  else
    let text := if b = Double.infinity then "inf" else String.ofList (Positional.shortest b).render
    if Double.isNegative x then "-" ++ text else text

end SmallLisp
