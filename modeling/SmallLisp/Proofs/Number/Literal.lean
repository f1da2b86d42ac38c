import Mathlib
import SmallLisp.Proofs.Number.Nearest
import SmallLisp.Proofs.Tokens.Scan

/-!
# Numbers read back

A double is its sign and its magnitude, except that all words of values that are not
numbers stand for one double. It is printed as a word, or as digits with an optional point
and sign, and the grammar of number literals takes the text apart along the same lines:
the digits before the point and those after it make up one number again
(`SmallLisp.Positional.ofDigitChars_append_fractionDigits`), and the number of places is
its exponent. What the digits of a finite double are nearest to is known, so that every
double, signed zeros and the value that is not a number included, is read back as it was
(`SmallLisp.numberLiteral?_renderNumber`).

* `SmallLisp.Double.ofMagnitude_magnitude` and `SmallLisp.Double.eq_of_infinity_lt` – what
  determines a double;
* `SmallLisp.renderNumber_cases` – what a double is printed as;
* `SmallLisp.isWord_renderNumber` – **a number is printed as a word**.
-/

namespace SmallLisp

-- `b ^ e` is the power of natural numbers, also where a more general one is known
attribute [local instance (high)] instPowNat

namespace Double

open Float.Model Float.Model.UnpackedFloat

/-! ### Sign and magnitude -/

/-- **Sign and magnitude determine a double.** -/
theorem ofMagnitude_magnitude (x : Float) : ofMagnitude (isNegative x) (magnitude x) = x := by
  have hlt : x.toBits.toNat < 2 ^ (64 : Nat) := x.toBits.toNat_lt
  have hword : (if isNegative x then 2 ^ (63 : Nat) + magnitude x else magnitude x) =
      x.toBits.toNat := by
    simp only [isNegative, magnitude, decide_eq_true_eq]
    split <;> omega
  rw [ofMagnitude, hword, UInt64.ofNat_toNat, Float.ofBits_toBits]

/-- **There is one double that is not a number.** -/
theorem eq_of_infinity_lt {x : Float} (h : infinity < magnitude x) :
    x = ofMagnitude false (infinity + 2 ^ (51 : Nat)) := by
  have hlt : x.toBits.toNat < 2 ^ (64 : Nat) := x.toBits.toNat_lt
  simp only [infinity, magnitude] at h
  -- the exponent is the largest one, and the significand is not zero
  have hexponent : @unpackExponent Format.binary64 x.toBits.toBitVec = -1#11 := by
    refine BitVec.eq_of_toNat_eq ?_
    rw [unpackExponent_def, BitVec.extractLsb'_toNat, Nat.shiftRight_eq_div_pow]
    change x.toBits.toNat / 2 ^ (52 : Nat) % 2 ^ (11 : Nat) = 2047
    omega
  have hsignificand : @unpackMantissa Format.binary64 x.toBits.toBitVec ≠ 0#52 := by
    intro hzero
    have hmod := congrArg BitVec.toNat hzero
    rw [unpackMantissa_def, BitVec.extractLsb'_toNat, Nat.shiftRight_zero] at hmod
    change x.toBits.toNat % 2 ^ (52 : Nat) = 0 at hmod
    omega
  have hword : x.toBits = UInt64.ofNat (infinity + 2 ^ (51 : Nat)) :=
    UInt64.toBitVec_inj.mp (x.toModel.valid.eq_packedNaN hexponent hsignificand)
  rw [ofMagnitude, if_neg (by decide), ← hword, Float.ofBits_toBits]

end Double

namespace Positional

/-! ### The digits of a positional decimal -/

theorem isDigit_of_mem_fractionDigits {p : Positional} {c : Char} (hc : c ∈ p.fractionDigits) :
    c.isDigit = true := by
  simp only [fractionDigits, List.mem_append, List.mem_replicate] at hc
  rcases hc with ⟨-, rfl⟩ | hc
  · rfl
  · exact Nat.isDigit_of_mem_toDigits (by decide) (by decide) hc

/-- There are as many digits after the point as there are places. -/
theorem length_fractionDigits {p : Positional} (h : p.places ≠ 0) :
    p.fractionDigits.length = p.places := by
  have hlt : p.units % 10 ^ p.places < 10 ^ p.places := Nat.mod_lt _ (Nat.pow_pos (by decide))
  have hle := (Nat.length_toDigits_le_iff (by decide) (Nat.pos_of_ne_zero h)).mpr hlt
  simp only [fractionDigits, List.length_append, List.length_replicate]
  omega

/-- **The digits before and after the point are the digits of one number.** -/
theorem ofDigitChars_append_fractionDigits {p : Positional} (h : p.places ≠ 0) :
    Nat.ofDigitChars 10 (Nat.toDigits 10 (p.units / 10 ^ p.places) ++ p.fractionDigits) 0 =
      p.units := by
  have hfraction : Nat.ofDigitChars 10 p.fractionDigits 0 = p.units % 10 ^ p.places := by
    rw [fractionDigits, Nat.ofDigitChars_append, Nat.ofDigitChars_replicate_zero, Nat.mul_zero,
      Nat.ofDigitChars_ten_toDigits]
  rw [Nat.ofDigitChars_append, Nat.ofDigitChars_ten_toDigits,
    Nat.ofDigitChars_eq_ofDigitChars_zero, length_fractionDigits h, hfraction]
  exact Nat.div_add_mod _ _

/-- The text of a positional decimal begins with a digit. -/
theorem exists_render_eq_cons (p : Positional) :
    ∃ c cs, p.render = c :: cs ∧ c.isDigit = true := by
  have hhead : ∀ (n : Nat) (rest : List Char),
      ∃ c cs, Nat.toDigits 10 n ++ rest = c :: cs ∧ c.isDigit = true := by
    intro n rest
    obtain ⟨c, cs, hcs⟩ := List.exists_cons_of_ne_nil (@Nat.toDigits_ne_nil n 10)
    refine ⟨c, cs ++ rest, by rw [hcs, List.cons_append], ?_⟩
    refine Nat.isDigit_of_mem_toDigits (by decide) (Nat.le_refl 10) (n := n) ?_
    rw [hcs]
    exact List.mem_cons_self
  unfold render
  split
  · simpa using hhead p.units []
  · exact hhead _ _

theorem isDigit_or_eq_of_mem_render {p : Positional} {c : Char} (hc : c ∈ p.render) :
    c.isDigit = true ∨ c = '.' := by
  unfold render at hc
  split at hc
  · exact .inl (Nat.isDigit_of_mem_toDigits (by decide) (by decide) hc)
  · rcases List.mem_append.mp hc with hc | hc
    · exact .inl (Nat.isDigit_of_mem_toDigits (by decide) (by decide) hc)
    · rcases List.mem_cons.mp hc with rfl | hc
      · exact .inr rfl
      · exact .inl (isDigit_of_mem_fractionDigits hc)

end Positional

namespace Decimal

/-! ### Taking a literal apart -/

/-- A run of digits goes on up to the first character that is none. -/
theorem digits_append {ds rest : List Char} (h : ∀ c ∈ ds, c.isDigit = true)
    (hrest : ∀ c ∈ rest.head?, c.isDigit = false) :
    (ds ++ rest).takeWhile Char.isDigit = ds ∧ (ds ++ rest).dropWhile Char.isDigit = rest := by
  rw [List.takeWhile_append_of_pos h, List.dropWhile_append_of_pos h]
  cases rest with
  | nil => exact ⟨List.append_nil ds, rfl⟩
  | cons c rest =>
    have hc : ¬c.isDigit = true := by simp [hrest c rfl]
    rw [List.takeWhile_cons_of_neg hc, List.dropWhile_cons_of_neg hc]
    exact ⟨List.append_nil ds, rfl⟩

/-- Without a point behind them, digits are those of the whole part. -/
theorem parts_of_isDigit {ds rest : List Char} (h : ∀ c ∈ ds, c.isDigit = true)
    (hrest : ∀ c ∈ rest.head?, c.isDigit = false ∧ c ≠ '.') :
    parts (ds ++ rest) = (ds, [], rest) := by
  obtain ⟨htake, hdrop⟩ := digits_append h fun c hc => (hrest c hc).1
  rw [parts, htake, hdrop]
  split
  · exact absurd rfl (hrest '.' rfl).2
  · rfl

/-- Digits with a point among them are taken apart at the point. -/
theorem parts_point {ws fs rest : List Char} (hws : ∀ c ∈ ws, c.isDigit = true)
    (hfs : ∀ c ∈ fs, c.isDigit = true) (hrest : ∀ c ∈ rest.head?, c.isDigit = false) :
    parts (ws ++ '.' :: (fs ++ rest)) = (ws, fs, rest) := by
  have hpoint : ∀ c ∈ ('.' :: (fs ++ rest)).head?, c.isDigit = false := by simp
  obtain ⟨hwhole, hbehind⟩ := digits_append hws hpoint
  obtain ⟨hfraction, hdrop⟩ := digits_append hfs hrest
  rw [parts, hwhole, hbehind]
  simp only [hfraction, hdrop]

/-- **The text of a positional decimal spells it**, with the sign in front. -/
theorem ofChars?_of_splitSign {cs : List Char} {negative : Bool} {p : Positional}
    (h : splitSign cs = (negative, p.render)) :
    ofChars? cs = some ⟨negative, p.units, -(p.places : Int)⟩ := by
  have hdigits : ∀ n : Nat, ∀ c ∈ Nat.toDigits 10 n, c.isDigit = true := fun n c hc =>
    Nat.isDigit_of_mem_toDigits (by decide) (by decide) hc
  unfold ofChars?
  rw [h]
  have hend : ∀ c ∈ ([] : List Char).head?, c.isDigit = false ∧ c ≠ '.' := by simp
  by_cases hplaces : p.places = 0
  · have hparts := parts_of_isDigit (hdigits p.units) hend
    rw [List.append_nil] at hparts
    simp [Positional.render, hplaces, hparts, exponent?]
  · have hfraction : ∀ c ∈ p.fractionDigits, c.isDigit = true := fun c hc =>
      Positional.isDigit_of_mem_fractionDigits hc
    have hparts := parts_point (hdigits (p.units / 10 ^ p.places)) hfraction
      fun c hc => (hend c hc).1
    rw [List.append_nil] at hparts
    simp [Positional.render, hplaces, hparts, exponent?,
      Positional.ofDigitChars_append_fractionDigits hplaces,
      Positional.length_fractionDigits hplaces]

end Decimal

/-! ### The text of a double -/

theorem Decimal.splitSign_render (p : Positional) : splitSign p.render = (false, p.render) := by
  obtain ⟨c, cs, hcs, hc⟩ := p.exists_render_eq_cons
  rw [hcs]
  unfold splitSign
  split
  · next h =>
    obtain ⟨rfl, -⟩ := List.cons.inj h
    simp at hc
  · next h =>
    obtain ⟨rfl, -⟩ := List.cons.inj h
    simp at hc
  · rfl

/-- The sign of a number as it is printed. -/
def signChars (negative : Bool) : List Char := if negative then ['-'] else []

theorem Decimal.splitSign_signChars_append (negative : Bool) (p : Positional) :
    splitSign (signChars negative ++ p.render) = (negative, p.render) := by
  cases negative with
  | false => exact splitSign_render p
  | true => rfl

/-- **What a double is printed as**: the word of the value that is not a number, or a sign
and then the word of infinity or a decimal with the magnitude of the double. -/
theorem renderNumber_cases (x : Float) :
    ((renderNumber x).toList = "nan".toList ∧
      x = Double.ofMagnitude false (Double.infinity + 2 ^ (51 : Nat))) ∨
    ∃ negative : Bool,
      ((renderNumber x).toList = signChars negative ++ "inf".toList ∧
        x = Double.ofMagnitude negative Double.infinity) ∨
      ∃ p : Positional, (renderNumber x).toList = signChars negative ++ p.render ∧
        x = Double.ofMagnitude negative p.magnitude := by
  have hx := Double.ofMagnitude_magnitude x
  simp only [renderNumber]
  by_cases hnan : Double.infinity < Double.magnitude x
  · rw [if_pos hnan]
    exact .inl ⟨rfl, Double.eq_of_infinity_lt hnan⟩
  have hsign : ∀ text : String,
      (if Double.isNegative x then "-" ++ text else text).toList =
        signChars (Double.isNegative x) ++ text.toList := by
    intro text
    cases Double.isNegative x <;> simp [signChars]
  rw [if_neg hnan, hsign]
  refine .inr ⟨Double.isNegative x, ?_⟩
  by_cases hinf : Double.magnitude x = Double.infinity
  · rw [hinf] at hx
    exact .inl ⟨by rw [if_pos hinf], hx.symm⟩
  · have hread : (Positional.shortest (Double.magnitude x)).magnitude = Double.magnitude x :=
      Positional.magnitude_shortest (by omega)
    refine .inr ⟨Positional.shortest (Double.magnitude x), ?_, ?_⟩
    · rw [if_neg hinf, String.toList_ofList]
    · rw [hread, hx]

/-- **A double reads back as it was printed.** -/
theorem numberLiteral?_renderNumber (x : Float) :
    numberLiteral? (renderNumber x).toList = some x := by
  rcases renderNumber_cases x with ⟨htext, hx⟩ | ⟨negative, ⟨htext, hx⟩ | ⟨p, htext, hx⟩⟩
  · rw [htext, hx]
    rfl
  · rw [htext, hx]
    cases negative <;> rfl
  · have hsplit := Decimal.splitSign_signChars_append negative p
    rw [htext, numberLiteral?, Decimal.ofChars?_of_splitSign hsplit]
    exact congrArg some hx.symm

/-! ### The characters of a number -/

theorem isAtomChar_of_isDigit {c : Char} (h : c.isDigit = true) : Token.isAtomChar c = true := by
  have hrange : 48 ≤ c.toNat ∧ c.toNat ≤ 57 := by
    simpa [Char.isDigit, UInt32.le_iff_toNat_le] using h
  have hblank : isBlank c = false := by
    rw [← Bool.not_eq_true, isBlank, inRanges_eq_true_iff ascendingFrom_blankRanges]
    simp only [blankRanges, List.mem_cons, List.not_mem_nil, or_false, not_exists, not_and]
    rintro r (rfl | rfl | rfl | rfl | rfl | rfl | rfl | rfl | rfl | rfl) <;> omega
  refine Token.isAtomChar_iff.mpr ⟨hblank, ?_, ?_⟩
  · rintro rfl
    simp at h
  · rintro rfl
    simp at h

/-- **A number is printed as a word.** -/
theorem isWord_renderNumber (x : Float) : Token.IsWord (renderNumber x) := by
  refine ⟨fun hempty => ?_, fun c hc => ?_⟩
  · -- nothing is read from nothing
    have hread := numberLiteral?_renderNumber x
    rw [hempty] at hread
    cases hread
  have hsign : ∀ negative, (signChars negative).all Token.isAtomChar = true := by
    intro negative
    cases negative <;> rfl
  rcases renderNumber_cases x with ⟨htext, -⟩ | ⟨negative, ⟨htext, -⟩ | ⟨p, htext, -⟩⟩
  · have hword : "nan".toList.all Token.isAtomChar = true := by decide
    rw [htext] at hc
    exact List.all_eq_true.mp hword c hc
  · have hword : "inf".toList.all Token.isAtomChar = true := by decide
    rw [htext, List.mem_append] at hc
    exact hc.elim (List.all_eq_true.mp (hsign negative) c) (List.all_eq_true.mp hword c)
  · rw [htext, List.mem_append] at hc
    rcases hc with hc | hc
    · exact List.all_eq_true.mp (hsign negative) c hc
    · rcases Positional.isDigit_or_eq_of_mem_render hc with hdigit | rfl
      · exact isAtomChar_of_isDigit hdigit
      · decide

end SmallLisp
