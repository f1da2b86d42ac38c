import Mathlib.Algebra.Order.Field.Power
import Mathlib.Data.Int.Log
import Mathlib.Data.Rat.Floor
import Mathlib.Tactic.FieldSimp
import Mathlib.Tactic.Positivity
import Mathlib.Tactic.Ring
import SmallLisp.Number.Shortest

/-!
# The nearest double of a double

The magnitude nearest to a fraction is found from the largest power of two below the
fraction (`SmallLisp.Double.binaryLog_eq_log`). Where the fraction is the exact value of a
stored magnitude, that power is the one the magnitude is stored with, the quotient that is
rounded is its significand, and nothing is moved. So all digits of a finite magnitude read
back, and the search for fewer digits only ever stops at digits that do.

* `SmallLisp.Double.value` – the exact value of a stored magnitude;
* `SmallLisp.Double.nearest_of_eq_value` – **a stored magnitude is nearest to its own
  value**;
* `SmallLisp.Positional.magnitude_shortest` – **the shortest decimal reads back**.
-/

namespace SmallLisp

-- `b ^ e` is the power of natural numbers, also where a more general one is known
attribute [local instance (high)] instPowNat

namespace Double

/-! ### Fractions and powers of two -/

theorem zpow_eq_toNat_div {b : ℚ} (hb : b ≠ 0) (q : Int) :
    b ^ q = b ^ q.toNat / b ^ (-q).toNat := by
  rw [← zpow_natCast, ← zpow_natCast, ← zpow_sub₀ hb]
  congr 1
  omega

theorem shiftFraction_snd_pos {d : Nat} (hd : 0 < d) (n : Nat) (q : Int) :
    0 < (shiftFraction n d q).2 :=
  Nat.mul_pos hd (Nat.two_pow_pos _)

/-- The value of a shifted fraction. -/
theorem shiftFraction_div {d : Nat} (hd : 0 < d) (n : Nat) (q : Int) :
    ((shiftFraction n d q).1 : ℚ) / (shiftFraction n d q).2 = n / d / 2 ^ q := by
  have hd' : (d : ℚ) ≠ 0 := by exact_mod_cast hd.ne'
  rw [zpow_eq_toNat_div two_ne_zero q]
  simp only [shiftFraction]
  push_cast
  field_simp

/-- A shifted fraction compares the fraction with a power of two. -/
theorem shiftFraction_snd_le_iff {d : Nat} (hd : 0 < d) (n : Nat) (q : Int) :
    (shiftFraction n d q).2 ≤ (shiftFraction n d q).1 ↔ (2 : ℚ) ^ q ≤ n / d := by
  have hsnd : (0 : ℚ) < (shiftFraction n d q).2 := by
    exact_mod_cast shiftFraction_snd_pos hd n q
  have hpow : (0 : ℚ) < 2 ^ q := by positivity
  rw [← Nat.cast_le (α := ℚ), ← one_le_div₀ hsnd, shiftFraction_div hd, one_le_div₀ hpow]

/-! ### The exponent of a fraction -/

theorem log_eq_of_le_of_lt {r : ℚ} (hr : 0 < r) {e : Int} (hle : (2 : ℚ) ^ e ≤ r)
    (hlt : r < (2 : ℚ) ^ (e + 1)) : Int.log 2 r = e := by
  have h1 : e ≤ Int.log 2 r := (Int.zpow_le_iff_le_log one_lt_two hr).mp hle
  have h2 : Int.log 2 r < e + 1 := (Int.lt_zpow_iff_log_lt one_lt_two hr).mp hlt
  omega

/-- **The exponent of a fraction** is its logarithm. -/
theorem binaryLog_eq_log {n d : Nat} (hn : 0 < n) (hd : 0 < d) :
    binaryLog n d = Int.log 2 ((n : ℚ) / d) := by
  have hn' : (0 : ℚ) < n := by exact_mod_cast hn
  have hd' : (0 : ℚ) < d := by exact_mod_cast hd
  have hpos : (0 : ℚ) < n / d := by positivity
  have hle_n : (2 : ℚ) ^ n.log2 ≤ n := by exact_mod_cast Nat.log2_self_le hn.ne'
  have hn_lt : (n : ℚ) < 2 ^ (n.log2 + 1) := by exact_mod_cast Nat.lt_log2_self
  have hle_d : (2 : ℚ) ^ d.log2 ≤ d := by exact_mod_cast Nat.log2_self_le hd.ne'
  have hd_lt : (d : ℚ) < 2 ^ (d.log2 + 1) := by exact_mod_cast Nat.lt_log2_self
  -- the lengths of `n` and `d` leave two exponents
  have hupper : (n : ℚ) / d < 2 ^ ((n.log2 : Int) - d.log2 + 1) := by
    rw [div_lt_iff₀ hd']
    calc (n : ℚ) < 2 ^ (n.log2 + 1) := hn_lt
      _ = 2 ^ ((n.log2 : Int) - d.log2 + 1) * 2 ^ d.log2 := by
        rw [← zpow_natCast, ← zpow_natCast, ← zpow_add₀ two_ne_zero]
        congr 1
        push_cast
        ring
      _ ≤ 2 ^ ((n.log2 : Int) - d.log2 + 1) * d := by gcongr
  have hlower : 2 ^ ((n.log2 : Int) - d.log2 - 1) ≤ (n : ℚ) / d := by
    rw [le_div_iff₀ hd']
    calc 2 ^ ((n.log2 : Int) - d.log2 - 1) * (d : ℚ)
        ≤ 2 ^ ((n.log2 : Int) - d.log2 - 1) * 2 ^ (d.log2 + 1) := by gcongr
      _ = 2 ^ n.log2 := by
        rw [← zpow_natCast, ← zpow_natCast, ← zpow_add₀ two_ne_zero]
        congr 1
        push_cast
        ring
      _ ≤ n := hle_n
  simp only [binaryLog]
  split
  · next h =>
    rw [shiftFraction_snd_le_iff hd] at h
    exact (log_eq_of_le_of_lt hpos h hupper).symm
  · next h =>
    rw [shiftFraction_snd_le_iff hd, not_le] at h
    refine (log_eq_of_le_of_lt hpos hlower ?_).symm
    rwa [sub_add_cancel]

/-! ### The value of a stored magnitude -/

theorem log2_of_lt {m : Nat} (h : m < 2 ^ (52 : Nat)) : m.log2 < 52 := by
  rcases Nat.eq_zero_or_pos m with rfl | hpos
  · decide
  · exact (Nat.log2_lt (Nat.ne_of_gt hpos)).mpr h

theorem log2_of_le_of_lt {m : Nat} (h : 2 ^ (52 : Nat) ≤ m) (h' : m < 2 ^ (53 : Nat)) :
    m.log2 = 52 :=
  (Nat.log2_eq_iff (by omega)).mpr ⟨h, h'⟩

/-- The exact value of a stored magnitude. -/
def value (b : Nat) : ℚ := significand b * 2 ^ exponent b

theorem significand_pos {b : Nat} (hb : 0 < b) : 0 < significand b := by
  simp only [significand]
  split <;> omega

/-- The exponent that the value of a stored magnitude is rounded at is the one it is
stored with. -/
theorem max_log_value {b : Nat} (hb : 0 < b) :
    max (Int.log 2 (value b) - 52) (-1074) = exponent b := by
  have hsig : significand b ≠ 0 := (significand_pos hb).ne'
  have hlog : Int.log 2 (value b) = (significand b).log2 + exponent b := by
    have hpos : (0 : ℚ) < value b := by
      have : (0 : ℚ) < significand b := by exact_mod_cast significand_pos hb
      unfold value
      positivity
    have hle : (2 : ℚ) ^ (significand b).log2 ≤ significand b := by
      exact_mod_cast Nat.log2_self_le hsig
    have hlt : (significand b : ℚ) < 2 ^ ((significand b).log2 + 1) := by
      exact_mod_cast Nat.lt_log2_self
    refine log_eq_of_le_of_lt hpos ?_ ?_
    · rw [zpow_add₀ two_ne_zero, zpow_natCast]
      unfold value
      gcongr
    · rw [add_right_comm, zpow_add₀ two_ne_zero]
      unfold value
      gcongr
      exact_mod_cast hlt
  rw [hlog]
  simp only [significand, exponent]
  split
  · next h =>
    have := log2_of_lt (m := b) (by omega)
    omega
  · next h =>
    rw [log2_of_le_of_lt (by omega) (by omega)]
    omega

/-- **A stored magnitude is nearest to its own value.** -/
theorem nearest_of_eq_value {n d b : Nat} (hd : 0 < d) (hb : 0 < b) (hfinite : b < infinity)
    (h : (n : ℚ) / d = value b) : nearest n d = b := by
  have hd' : (d : ℚ) ≠ 0 := by exact_mod_cast hd.ne'
  have hsig : (0 : ℚ) < significand b := by exact_mod_cast significand_pos hb
  have hn : 0 < n := by
    refine Nat.pos_of_ne_zero fun hzero => ?_
    have : (0 : ℚ) < n / d := by
      rw [h, value]
      positivity
    simp [hzero] at this
  have hexp : max (binaryLog n d - 52) (-1074) = exponent b := by
    rw [binaryLog_eq_log hn hd, h, max_log_value hb]
  -- the quotient that is rounded is the significand
  have hsnd := shiftFraction_snd_pos hd n (exponent b)
  have hquotient : (shiftFraction n d (exponent b)).1 =
      (shiftFraction n d (exponent b)).2 * significand b := by
    have hshift := shiftFraction_div hd n (exponent b)
    have hsnd' : ((shiftFraction n d (exponent b)).2 : ℚ) ≠ 0 := by exact_mod_cast hsnd.ne'
    rw [h, value, mul_div_assoc, div_self (by positivity), mul_one, div_eq_iff hsnd'] at hshift
    rw [mul_comm]
    exact_mod_cast hshift
  simp only [nearest, if_neg hn.ne', hexp, hquotient]
  rw [roundHalfEven_mul_left _ hsnd, exponent_significand, Nat.min_eq_right hfinite.le]

end Double

namespace Positional

open Double

/-! ### Digits that read back -/

/-- A positional decimal with enough digits is read as a fraction, never as one that is too
small to matter. -/
theorem magnitude_eq_nearest {p : Positional} (h : 2 ^ p.places ≤ p.units) :
    p.magnitude = nearest p.units (10 ^ p.places) := by
  have hunits : p.units ≠ 0 := (Nat.lt_of_lt_of_le (Nat.two_pow_pos _) h).ne'
  have hlog : p.places ≤ p.units.log2 := (Nat.le_log2 hunits).mpr h
  have hlimit : Decimal.exponentLimit = 400 := rfl
  rw [Positional.magnitude, Decimal.magnitude, if_neg hunits, if_neg (by omega), if_neg (by omega)]
  simp

/-- **All digits of a finite magnitude read back.** -/
theorem magnitude_allDigits {b : Nat} (hb : 0 < b) (hfinite : b < infinity) :
    (allDigits b).magnitude = b := by
  have hsig := significand_pos hb
  have hunits : 2 ^ (allDigits b).places ≤ (allDigits b).units :=
    calc 2 ^ (-exponent b).toNat ≤ 5 ^ (-exponent b).toNat := Nat.pow_le_pow_left (by decide) _
      _ ≤ significand b * 2 ^ (exponent b).toNat * 5 ^ (-exponent b).toNat :=
        Nat.le_mul_of_pos_left _ (Nat.mul_pos hsig (Nat.two_pow_pos _))
  rw [magnitude_eq_nearest hunits]
  refine nearest_of_eq_value (Nat.pow_pos (by decide)) hb hfinite ?_
  rw [value, zpow_eq_toNat_div two_ne_zero, show (10 : Nat) = 2 * 5 from rfl, Nat.mul_pow]
  simp only [allDigits]
  push_cast
  field_simp

/-- **The shortest decimal reads back.** -/
theorem magnitude_shortest {b : Nat} (hfinite : b < infinity) : (shortest b).magnitude = b := by
  simp only [shortest]
  split
  · next hzero =>
    subst hzero
    rfl
  · next hb =>
    cases hfound : (List.range 24).findSome? fun i : Nat => onGrid? b (coarsestExponent b - i) with
    | none => exact magnitude_allDigits (Nat.pos_of_ne_zero hb) hfinite
    | some p =>
      obtain ⟨i, -, hi⟩ := List.exists_of_findSome?_eq_some hfound
      exact magnitude_of_onGrid? hi

end Positional

end SmallLisp
