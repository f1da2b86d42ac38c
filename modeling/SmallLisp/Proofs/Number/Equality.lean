import Mathlib

/-!
# Equality of doubles

Two doubles are equal when they have the same numerical value. The value of a double
(`SmallLisp.Double.value?`) is the double itself, except that a zero has no sign, and that a
double that is not a number has no value at all. Said like this, equality is a partial
equivalence at once: it is symmetric and transitive, and a double equals itself exactly if it
has a value.
-/

namespace SmallLisp

namespace Double

open Float.Model

/-- The numerical value of a double that has been taken apart: both zeros have the same one, and
what is not a number has none. -/
def unpackedValue? : UnpackedFloat → Option UnpackedFloat
  | .notANumber => none
  | .zero _ => some (.zero .positive)
  | u => some u

/-- **The numerical value of a double.** -/
def value? (x : Float) : Option UnpackedFloat := unpackedValue? x.toModel.unpack

theorem value?_eq_none_iff {x : Float} : value? x = none ↔ x.isNaN = true := by
  change unpackedValue? x.toModel.unpack = none ↔ x.toModel.unpack.isNaN = true
  cases x.toModel.unpack <;> simp [unpackedValue?, UnpackedFloat.isNaN]

/-- Doubles that have been taken apart compare as equal if they have the same value. -/
theorem compare_eq_some_eq_iff {u v : UnpackedFloat} :
    u.compare v = some .eq ↔ ∃ w, unpackedValue? u = some w ∧ unpackedValue? v = some w := by
  cases u with
  | notANumber => cases v <;> simp [UnpackedFloat.compare, unpackedValue?]
  | infinity s =>
    rcases v with ⟨_ | _⟩ | _ | _ | _ <;> cases s <;>
      simp [UnpackedFloat.compare, unpackedValue?] <;> decide
  | zero s =>
    rcases v with ⟨_ | _⟩ | _ | _ | ⟨_ | _, _, _, _⟩ <;>
      simp [UnpackedFloat.compare, unpackedValue?]
  | finite s m e _ =>
    -- exponent and significand are compared one after the other
    rcases v with ⟨_ | _⟩ | _ | _ | ⟨_ | _, m', e', _⟩ <;> cases s <;>
      simp [UnpackedFloat.compare, unpackedValue?, Ordering.then_eq_eq] <;> omega

/-- **Doubles are equal exactly if they have the same numerical value.** -/
theorem beq_iff_value? {x y : Float} :
    (x == y) = true ↔ ∃ w, value? x = some w ∧ value? y = some w := by
  change (x.toModel.unpack.compare y.toModel.unpack == some .eq) = true ↔ _
  rw [beq_iff_eq, compare_eq_some_eq_iff]
  rfl

theorem beq_symm {x y : Float} (h : (x == y) = true) : (y == x) = true := by
  obtain ⟨w, hx, hy⟩ := beq_iff_value?.mp h
  exact beq_iff_value?.mpr ⟨w, hy, hx⟩

theorem beq_trans {x y z : Float} (hxy : (x == y) = true) (hyz : (y == z) = true) :
    (x == z) = true := by
  obtain ⟨w, hx, hy⟩ := beq_iff_value?.mp hxy
  obtain ⟨w', hy', hz⟩ := beq_iff_value?.mp hyz
  obtain rfl : w = w' := Option.some.inj (hy.symm.trans hy')
  exact beq_iff_value?.mpr ⟨w, hx, hz⟩

/-- A double equals itself unless it is not a number. -/
theorem beq_self_iff {x : Float} : (x == x) = true ↔ x.isNaN = false := by
  rw [beq_iff_value?, Bool.eq_false_iff, ne_eq, ← value?_eq_none_iff, ← ne_eq,
    Option.ne_none_iff_exists']
  simp only [and_self]

end Double

end SmallLisp
