/-!
# The double nearest to a fraction

A finite double of the format *binary64* is `m · 2 ^ q` with `m < 2 ^ 53` and `-1074
≤ q ≤ 971`, and its magnitude is stored as the 63-bit word `(q + 1074) · 2 ^ 52 +
m`. That formula holds for normal and subnormal numbers alike, and it is monotone: a
significand that rounds up to `2 ^ 53` carries into the next exponent by itself, and
everything from `2 ^ 1024` on lands at or above the word of infinity.

* `SmallLisp.Double.roundHalfEven` – a quotient of natural numbers, a half going to
  the even neighbour;
* `SmallLisp.Double.nearest` – **the magnitude nearest to a fraction**, in exact
  arithmetic;
* `SmallLisp.Double.significand` and `SmallLisp.Double.exponent` – the two parts of
  a stored magnitude;
* `SmallLisp.Double.magnitude` and `SmallLisp.Double.ofMagnitude` – from a double to
  its magnitude and back.
-/

namespace SmallLisp

-- `b ^ e` is the power of natural numbers, also where a more general one is known
attribute [local instance (high)] instPowNat

namespace Double

/-- The magnitude word of infinity; larger words are not numbers. -/
def infinity : Nat := 2047 * 2 ^ (52 : Nat)

/-! ### Rounding a quotient -/

/-- The natural number nearest to `n / d`, the even one of two that are equally
near. -/
def roundHalfEven (n d : Nat) : Nat :=
  let k := n / d
  let r := n % d
  if 2 * r < d then k else if d < 2 * r then k + 1 else k + k % 2

/-- A quotient that comes out even is not moved. -/
@[simp]
theorem roundHalfEven_mul_left (k : Nat) {d : Nat} (h : 0 < d) : roundHalfEven (d * k) d = k := by
  simp [roundHalfEven, Nat.mul_div_cancel_left _ h, h]

/-! ### The exponent of a fraction -/

/-- The fraction `n / d` divided by `2 ^ q`, as a fraction. -/
def shiftFraction (n d : Nat) (q : Int) : Nat × Nat :=
  (n * 2 ^ (-q).toNat, d * 2 ^ q.toNat)

/-- The largest `e` with `2 ^ e ≤ n / d`, for positive `n` and `d`. -/
def binaryLog (n d : Nat) : Int :=
  let e : Int := (n.log2 : Int) - (d.log2 : Int)
  let s := shiftFraction n d e
  if s.2 ≤ s.1 then e else e - 1

/-! ### The nearest magnitude -/

/-- **The magnitude nearest to `n / d`**, a half going to the even significand; from
`2 ^ 1024 - 2 ^ 970` on this is infinity. -/
def nearest (n d : Nat) : Nat :=
  if n = 0 then 0
  else
    let q := max (binaryLog n d - 52) (-1074)
    let s := shiftFraction n d q
    min infinity ((q + 1074).toNat * 2 ^ (52 : Nat) + roundHalfEven s.1 s.2)

/-! ### Taking a stored magnitude apart -/

/-- The significand of a stored magnitude; a subnormal number has no implicit
leading bit. -/
def significand (b : Nat) : Nat :=
  if b / 2 ^ (52 : Nat) = 0 then b else 2 ^ (52 : Nat) + b % 2 ^ (52 : Nat)

/-- The power of two that the significand is scaled by. -/
def exponent (b : Nat) : Int :=
  ((b / 2 ^ (52 : Nat) - 1 : Nat) : Int) - 1074

/-- The magnitude is made of its two parts again by the formula of the storage
format. -/
theorem exponent_significand (b : Nat) :
    (exponent b + 1074).toNat * 2 ^ (52 : Nat) + significand b = b := by
  have h := Nat.div_add_mod b (2 ^ (52 : Nat))
  simp only [exponent, significand]
  split
  · next h0 =>
    have hq : ((((b / 2 ^ (52 : Nat) - 1 : Nat) : Int) - 1074) + 1074).toNat = 0 := by omega
    rw [hq, Nat.zero_mul, Nat.zero_add]
  · next h0 =>
    have hq : ((((b / 2 ^ (52 : Nat) - 1 : Nat) : Int) - 1074) + 1074).toNat
        = b / 2 ^ (52 : Nat) - 1 := by omega
    rw [hq]
    omega

/-- The exact value of a stored magnitude, as a fraction. -/
def fraction (b : Nat) : Nat × Nat :=
  shiftFraction (significand b) 1 (-exponent b)

/-! ### Doubles and their words -/

/-- The magnitude word of a double: its 64 bits without the sign. -/
def magnitude (x : Float) : Nat := x.toBits.toNat % 2 ^ (63 : Nat)

/-- Whether the sign bit of a double is set, as it is for `-0`. -/
def isNegative (x : Float) : Bool := 2 ^ (63 : Nat) ≤ x.toBits.toNat

/-- The double with the given sign and magnitude word. -/
def ofMagnitude (negative : Bool) (b : Nat) : Float :=
  Float.ofBits (UInt64.ofNat (if negative then 2 ^ (63 : Nat) + b else b))

end Double

end SmallLisp
