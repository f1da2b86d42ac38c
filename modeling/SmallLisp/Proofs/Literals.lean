import Mathlib
import SmallLisp.Proofs.RoundTrip

/-!
# What is a literal

Which atoms are numbers is said by a grammar, here as languages over characters built from
one another: digits, a point, a sign, an exponent (`SmallLisp.Literal.number`). The reader of
numbers cuts a text where a run of digits ends and looks at what is left, so each of its steps
has to find the one cut that the grammar allows. The pieces tell their own ends: no exponent
begins with a digit or a point (`SmallLisp.Literal.head_of_mem_exponent`), and nothing that
follows a sign begins with one (`SmallLisp.Literal.mem_sign_mul_iff`).

* `SmallLisp.Literal.isSome_ofChars?_iff` – **the reader of decimals accepts the grammar**;
* `SmallLisp.Literal.LongestAtFront` – the longest literal that a text begins with, and
  `SmallLisp.Literal.mem_iff_longest`, that it decides what kind of literal the text is;
* `SmallLisp.atoms_follow_literal_grammar` – **which texts are literals**, and that everything
  else is a name.
-/

namespace SmallLisp

open scoped Computability

namespace Literal

/-! ### The grammar -/

/-- The texts of one character of a class. -/
def oneOf (p : Char → Bool) : Language Char := {w | ∃ c, p c = true ∧ w = [c]}

/-- The texts of a language, and the empty one. -/
def optional (L : Language Char) : Language Char := 1 + L

/-- Runs of digits, the empty one among them. -/
def digits : Language Char := (oneOf Char.isDigit)∗

/-- Runs of at least one digit. -/
def someDigits : Language Char := oneOf Char.isDigit * digits

/-- An optional sign. -/
def sign : Language Char := optional (oneOf fun c => c = '+' || c = '-')

/-- A decimal point. -/
def point : Language Char := oneOf (· = '.')

/-- Digits and perhaps a point with digits behind it, or a point and digits. -/
def mantissa : Language Char := someDigits * optional (point * digits) + point * someDigits

/-- An optional exponent: a letter `e` of either case, an optional sign and digits. -/
def exponent : Language Char :=
  optional (oneOf (fun c => c = 'e' || c = 'E') * (sign * someDigits))

/-- The decimals. -/
def decimal : Language Char := sign * (mantissa * exponent)

/-- The words for the doubles that no decimal spells. -/
def named : Language Char := {w | String.ofList w ∈ ["inf", "+inf", "-inf", "nan"]}

/-- **The number literals.** -/
def number : Language Char := decimal + named

/-- **The texts in double quotes.** There is no quote of either kind and no line end in
them. -/
def quoted : Language Char :=
  {w | ∃ content, w = '"' :: (content ++ ['"']) ∧ ∀ c ∈ content, Atom.isQuotable c = true}

/-- The words for the booleans. -/
def boolean : Language Char := {w | String.ofList w ∈ ["t", "nil"]}

/-! ### Membership -/

theorem mem_optional {L : Language Char} {w : List Char} : w ∈ optional L ↔ w = [] ∨ w ∈ L :=
  Iff.rfl

theorem mem_oneOf_mul {p : Char → Bool} {L : Language Char} {w : List Char} :
    w ∈ oneOf p * L ↔ ∃ c cs, p c = true ∧ cs ∈ L ∧ w = c :: cs := by
  rw [Language.mem_mul]
  constructor
  · rintro ⟨a, ⟨c, hc, rfl⟩, cs, hcs, rfl⟩
    exact ⟨c, cs, hc, hcs, rfl⟩
  · rintro ⟨c, cs, hc, hcs, rfl⟩
    exact ⟨[c], ⟨c, hc, rfl⟩, cs, hcs, rfl⟩

theorem mem_point_mul {L : Language Char} {w : List Char} :
    w ∈ point * L ↔ ∃ cs ∈ L, w = '.' :: cs := by
  simp [point, mem_oneOf_mul]

theorem mem_digits {w : List Char} : w ∈ digits ↔ ∀ c ∈ w, c.isDigit = true := by
  rw [digits, Language.mem_kstar]
  constructor
  · rintro ⟨ds, rfl, hds⟩ c hc
    obtain ⟨d, hd, hc⟩ := List.mem_flatten.mp hc
    obtain ⟨c', hc', rfl⟩ := hds d hd
    rwa [List.mem_singleton.mp hc]
  · intro h
    refine ⟨w.map fun c => [c], ?_, fun d hd => ?_⟩
    · rw [← List.flatMap_def, List.flatMap_singleton']
    · obtain ⟨c, hc, rfl⟩ := List.mem_map.mp hd
      exact ⟨c, h c hc, rfl⟩

theorem mem_someDigits {w : List Char} :
    w ∈ someDigits ↔ w ≠ [] ∧ ∀ c ∈ w, c.isDigit = true := by
  rw [someDigits, mem_oneOf_mul]
  constructor
  · rintro ⟨c, cs, hc, hcs, rfl⟩
    exact ⟨List.cons_ne_nil c cs, List.forall_mem_cons.mpr ⟨hc, mem_digits.mp hcs⟩⟩
  · rintro ⟨hne, h⟩
    obtain ⟨c, cs, rfl⟩ := List.exists_cons_of_ne_nil hne
    obtain ⟨hc, hcs⟩ := List.forall_mem_cons.mp h
    exact ⟨c, cs, hc, mem_digits.mpr hcs, rfl⟩

/-! ### Where the pieces end -/

/-- A language whose texts do not begin with a sign. -/
def Unsigned (L : Language Char) : Prop := ∀ w ∈ L, ∀ c ∈ w.head?, c ≠ '+' ∧ c ≠ '-'

/-- **A sign is taken off at the front**, if nothing that may follow it begins with one. -/
theorem mem_sign_mul_iff {L : Language Char} (hL : Unsigned L) {w : List Char} :
    w ∈ sign * L ↔ (Decimal.splitSign w).2 ∈ L := by
  constructor
  · rintro h
    obtain ⟨s, hs, cs, hcs, rfl⟩ := Language.mem_mul.mp h
    rcases mem_optional.mp hs with rfl | ⟨c, hc, rfl⟩
    · -- what follows is no sign, so nothing is taken off
      rw [List.nil_append]
      unfold Decimal.splitSign
      split
      · exact absurd rfl (hL _ hcs '-' rfl).2
      · exact absurd rfl (hL _ hcs '+' rfl).1
      · exact hcs
    · simp only [Bool.or_eq_true, decide_eq_true_eq] at hc
      rcases hc with rfl | rfl <;> exact hcs
  · intro h
    unfold Decimal.splitSign at h
    split at h
    · exact Language.mem_mul.mpr ⟨['-'], .inr ⟨'-', by decide, rfl⟩, _, h, rfl⟩
    · exact Language.mem_mul.mpr ⟨['+'], .inr ⟨'+', by decide, rfl⟩, _, h, rfl⟩
    · exact Language.mem_mul.mpr ⟨[], .inl rfl, _, h, rfl⟩

theorem not_sign_of_isDigit {c : Char} (h : c.isDigit = true) : c ≠ '+' ∧ c ≠ '-' := by
  constructor <;> rintro rfl <;> simp at h

theorem unsigned_someDigits : Unsigned someDigits := by
  intro w hw c hc
  exact not_sign_of_isDigit ((mem_someDigits.mp hw).2 c (List.mem_of_mem_head? hc))

theorem unsigned_mantissa_mul (L : Language Char) : Unsigned (mantissa * L) := by
  intro w hw c hc
  obtain ⟨m, hm, e, -, rfl⟩ := Language.mem_mul.mp hw
  rcases hm with hm | hm
  · obtain ⟨ws, hws, fs, -, rfl⟩ := Language.mem_mul.mp hm
    obtain ⟨d, ds, rfl⟩ := List.exists_cons_of_ne_nil (mem_someDigits.mp hws).1
    obtain rfl : d = c := by simpa using hc
    exact not_sign_of_isDigit ((mem_someDigits.mp hws).2 d List.mem_cons_self)
  · obtain ⟨fs, -, rfl⟩ := mem_point_mul.mp hm
    obtain rfl : '.' = c := by simpa using hc
    decide

/-- **An exponent is told from what is in front of it**: it begins with a letter. -/
theorem head_of_mem_exponent {w : List Char} (h : w ∈ exponent) :
    ∀ c ∈ w.head?, c.isDigit = false ∧ c ≠ '.' := by
  intro c hc
  rcases mem_optional.mp h with rfl | h
  · simp at hc
  · obtain ⟨e, cs, he, -, rfl⟩ := mem_oneOf_mul.mp h
    obtain rfl : e = c := by simpa using hc
    simp only [Bool.or_eq_true, decide_eq_true_eq] at he
    rcases he with rfl | rfl <;> decide

/-! ### The reader of numbers -/

theorem isSome_digits?_iff {cs : List Char} :
    (Decimal.digits? cs).isSome = true ↔ cs ∈ someDigits := by
  simp [Decimal.digits?, mem_someDigits]

theorem isSome_exponent?_iff {cs : List Char} :
    (Decimal.exponent? cs).isSome = true ↔ cs ∈ exponent := by
  rw [exponent, mem_optional]
  cases cs with
  | nil => simp [Decimal.exponent?]
  | cons c cs =>
    have hdigits : (Decimal.digits? (Decimal.splitSign cs).2).isSome = true ↔
        cs ∈ sign * someDigits := by
      rw [mem_sign_mul_iff unsigned_someDigits, isSome_digits?_iff]
    by_cases hc : c = 'e' ∨ c = 'E'
    · have hvalue : (Decimal.exponent? (c :: cs)).isSome =
          (Decimal.digits? (Decimal.splitSign cs).2).isSome := by
        rw [Decimal.exponent?, if_pos hc]
        obtain ⟨negative, ds⟩ := Decimal.splitSign cs
        dsimp only
        cases Decimal.digits? ds <;> rfl
      rw [hvalue, hdigits, mem_oneOf_mul]
      constructor
      · exact fun h => .inr ⟨c, cs, by simpa using hc, h, rfl⟩
      · rintro (hnil | ⟨d, ds, -, h, hcons⟩)
        · cases hnil
        · obtain ⟨rfl, rfl⟩ := List.cons.inj hcons
          exact h
    · rw [Decimal.exponent?, if_neg hc]
      simp [mem_oneOf_mul, not_or.mp hc]

/-- **How an unsigned decimal is taken apart**: at a point with digits on either side, or else
behind its digits. -/
theorem parts_cases (cs : List Char) :
    (∃ ws ∈ digits, ∃ fs ∈ digits, ∃ rest, cs = ws ++ '.' :: (fs ++ rest) ∧
      Decimal.parts cs = (ws, fs, rest)) ∨
    ∃ ws ∈ digits, ∃ rest, cs = ws ++ rest ∧ Decimal.parts cs = (ws, [], rest) := by
  have hdigits : ∀ ds : List Char, ds.takeWhile Char.isDigit ∈ digits := fun ds =>
    mem_digits.mpr fun c hc => List.mem_takeWhile_imp hc
  unfold Decimal.parts
  split
  · next rest hrest =>
    refine .inl ⟨_, hdigits cs, _, hdigits rest, _, ?_, rfl⟩
    rw [List.takeWhile_append_dropWhile, ← hrest, List.takeWhile_append_dropWhile]
  · exact .inr ⟨_, hdigits cs, _, List.takeWhile_append_dropWhile.symm, rfl⟩

/-- **The parts of an unsigned decimal are those of the grammar.** -/
theorem mem_mantissa_mul_exponent_iff {cs : List Char} :
    cs ∈ mantissa * exponent ↔
      ¬((Decimal.parts cs).1 = [] ∧ (Decimal.parts cs).2.1 = []) ∧
        (Decimal.parts cs).2.2 ∈ exponent := by
  constructor
  · intro h
    obtain ⟨m, hm, e, he, rfl⟩ := Language.mem_mul.mp h
    have hend := head_of_mem_exponent he
    rcases hm with hm | hm
    · obtain ⟨ws, hws, fs, hfs, rfl⟩ := Language.mem_mul.mp hm
      obtain ⟨hne, hws⟩ := mem_someDigits.mp hws
      rcases mem_optional.mp hfs with rfl | hfs
      · rw [List.append_nil, Decimal.parts_of_isDigit hws hend]
        exact ⟨fun hnone => hne hnone.1, he⟩
      · obtain ⟨fs, hfraction, rfl⟩ := mem_point_mul.mp hfs
        rw [List.append_assoc, List.cons_append,
          Decimal.parts_point hws (mem_digits.mp hfraction) fun c hc => (hend c hc).1]
        exact ⟨fun hnone => hne hnone.1, he⟩
    · obtain ⟨fs, hfs, rfl⟩ := mem_point_mul.mp hm
      obtain ⟨hne, hfs⟩ := mem_someDigits.mp hfs
      have hparts : Decimal.parts ([] ++ '.' :: (fs ++ e)) = ([], fs, e) :=
        Decimal.parts_point (by simp) hfs fun c hc => (hend c hc).1
      rw [List.cons_append, ← List.nil_append ('.' :: (fs ++ e)), hparts]
      exact ⟨fun hnone => hne hnone.2, he⟩
  · rintro ⟨hsome, he⟩
    rcases parts_cases cs with ⟨ws, hws, fs, hfs, rest, hcs, hparts⟩ | ⟨ws, hws, rest, hcs, hparts⟩
    · rw [hparts] at hsome he
      have hmantissa : ws ++ '.' :: fs ∈ mantissa := by
        by_cases hnil : ws = []
        · subst hnil
          have hne : fs ≠ [] := fun hnone => hsome ⟨rfl, hnone⟩
          have hfs' : fs ∈ someDigits := mem_someDigits.mpr ⟨hne, mem_digits.mp hfs⟩
          exact .inr (mem_point_mul.mpr ⟨fs, hfs', rfl⟩)
        · have hws' : ws ∈ someDigits := mem_someDigits.mpr ⟨hnil, mem_digits.mp hws⟩
          exact .inl (Language.append_mem_mul hws' (.inr (mem_point_mul.mpr ⟨fs, hfs, rfl⟩)))
      refine Language.mem_mul.mpr ⟨_, hmantissa, rest, he, ?_⟩
      rw [hcs, List.append_assoc, List.cons_append]
    · rw [hparts] at hsome he
      have hne : ws ≠ [] := fun hnone => hsome ⟨hnone, rfl⟩
      have hws' : ws ∈ someDigits := mem_someDigits.mpr ⟨hne, mem_digits.mp hws⟩
      have hmantissa : ws ∈ mantissa :=
        .inl (Language.mem_mul.mpr ⟨ws, hws', [], .inl rfl, List.append_nil ws⟩)
      exact Language.mem_mul.mpr ⟨ws, hmantissa, rest, he, hcs.symm⟩

/-- **The reader of decimals accepts the grammar.** -/
theorem isSome_ofChars?_iff {cs : List Char} :
    (Decimal.ofChars? cs).isSome = true ↔ cs ∈ decimal := by
  rw [decimal, mem_sign_mul_iff (unsigned_mantissa_mul exponent), mem_mantissa_mul_exponent_iff,
    ← isSome_exponent?_iff, Decimal.ofChars?]
  simp only []
  split
  · next hnone => exact iff_of_false (by simp) fun h => h.1 hnone
  · next hsome => rw [Option.isSome_map, and_iff_right hsome]

theorem isSome_namedNumber?_iff {cs : List Char} :
    (namedNumber? cs).isSome = true ↔ cs ∈ named := by
  rw [namedNumber?]
  change _ ↔ String.ofList cs ∈ ["inf", "+inf", "-inf", "nan"]
  split
  · next h => simp [h]
  · next h => simp [h]
  · next h => simp [h]
  · next h => simp [h]
  · next h₁ h₂ h₃ h₄ => simpa using ⟨h₁, h₂, h₃, h₄⟩

/-- **The reader of numbers accepts the number literals.** -/
theorem isSome_numberLiteral?_iff {cs : List Char} :
    (numberLiteral? cs).isSome = true ↔ cs ∈ number := by
  rw [number, Language.mem_add, ← isSome_ofChars?_iff, ← isSome_namedNumber?_iff, numberLiteral?]
  cases Decimal.ofChars? cs with
  | none => simp
  | some d => simp

/-! ### The longest literal at the front -/

/-- **The literals.** -/
def literal : Language Char := number + quoted + boolean

/-- **The longest literal that a text begins with.** -/
structure LongestAtFront (cs p : List Char) : Prop where
  isPrefix : p <+: cs
  literal : p ∈ literal
  longest : ∀ q, q <+: cs → q ∈ Literal.literal → byteLength q ≤ byteLength p

/-- **A text is of a kind of literals** exactly if the longest literal at its front ends where the
text ends, and is of that kind. -/
theorem mem_iff_longest {L : Language Char} (hL : L ≤ literal) {cs : List Char} :
    cs ∈ L ↔ ∃ p, LongestAtFront cs p ∧ byteLength p = byteLength cs ∧ p ∈ L := by
  constructor
  · intro h
    refine ⟨cs, ⟨List.prefix_refl cs, hL h, ?_⟩, rfl, h⟩
    rintro q ⟨rest, rfl⟩ -
    rw [byteLength_append]
    exact Nat.le_add_right _ _
  · rintro ⟨p, ⟨⟨rest, rfl⟩, -, -⟩, hlength, hp⟩
    -- nothing is left behind the literal
    rw [byteLength_append] at hlength
    obtain rfl : rest = [] := byteLength_eq_zero_iff.mp (by omega)
    rwa [List.append_nil]

theorem number_le_literal : number ≤ literal := fun _ h => .inl (.inl h)

theorem quoted_le_literal : quoted ≤ literal := fun _ h => .inl (.inr h)

theorem boolean_le_literal : boolean ≤ literal := fun _ h => .inr h

/-- A text is a literal exactly if the longest literal at its front ends where the
text ends. -/
theorem mem_literal_iff_longest {cs : List Char} :
    cs ∈ literal ↔ ∃ p, LongestAtFront cs p ∧ byteLength p = byteLength cs := by
  rw [mem_iff_longest (le_refl literal)]
  exact exists_congr fun p => and_congr_right fun hp => and_iff_left hp.literal

/-! ### Atoms -/

theorem isSome_quoted?_iff {cs : List Char} : (Atom.quoted? cs).isSome = true ↔ cs ∈ quoted := by
  rw [Option.isSome_iff_exists]
  constructor
  · rintro ⟨content, h⟩
    exact ⟨content.toList, Atom.quoted?_eq_some_iff.mp h⟩
  · rintro ⟨content, h⟩
    refine ⟨String.ofList content, Atom.quoted?_eq_some_iff.mpr ?_⟩
    rwa [String.toList_ofList]

/-- **No number is a quoted text.** -/
theorem not_quoted_of_number {cs : List Char} (h : cs ∈ number) : cs ∉ quoted := by
  rintro ⟨content, rfl, -⟩
  rw [← isSome_numberLiteral?_iff, Atom.numberLiteral?_of_quote] at h
  cases h

theorem mem_boolean_iff {text : String} : text.toList ∈ boolean ↔ text = "t" ∨ text = "nil" := by
  change String.ofList text.toList ∈ ["t", "nil"] ↔ _
  simp

/-- **No boolean is a number or a quoted text.** -/
theorem not_number_of_boolean {text : String} (h : text.toList ∈ boolean) :
    text.toList ∉ number ∧ text.toList ∉ quoted := by
  rw [← isSome_numberLiteral?_iff, ← isSome_quoted?_iff]
  rcases mem_boolean_iff.mp h with rfl | rfl <;> decide

/-- A text in quotes and its content. -/
theorem quoted?_toList_eq_some_iff {text content : String} :
    Atom.quoted? text.toList = some content ↔ text = "\"" ++ content ++ "\"" ∧
      ∀ c ∈ content.toList, c ≠ '"' ∧ c ≠ '\'' ∧ c ≠ '\r' ∧ c ≠ '\n' := by
  rw [Atom.quoted?_eq_some_iff, ← String.toList_inj]
  simp [Atom.isQuotable, and_assoc]

/-- **What an atom's text spells.** -/
theorem ofText_cases (text : String) :
    (text.toList ∈ number ∧ ∃ x, Atom.ofText text = .number x) ∨
    (text.toList ∈ quoted ∧
      ∃ content, Atom.quoted? text.toList = some content ∧ Atom.ofText text = .text content) ∨
    (text.toList ∈ boolean ∧
      ∃ b, text = (if b then "t" else "nil") ∧ Atom.ofText text = .boolean b) ∨
    (text.toList ∉ literal ∧ Atom.ofText text = .symbol text) := by
  have hliteral : text.toList ∈ literal ↔
      (text.toList ∈ number ∨ text.toList ∈ quoted) ∨ text.toList ∈ boolean := Iff.rfl
  rw [hliteral, mem_boolean_iff, ← isSome_numberLiteral?_iff, ← isSome_quoted?_iff, Atom.ofText]
  cases numberLiteral? text.toList with
  | some x => exact .inl ⟨rfl, x, rfl⟩
  | none =>
    cases Atom.quoted? text.toList with
    | some content => exact .inr (.inl ⟨rfl, content, rfl, rfl⟩)
    | none =>
      by_cases ht : text = "t"
      · exact .inr (.inr (.inl ⟨.inl ht, true, ht, if_pos ht⟩))
      by_cases hnil : text = "nil"
      · exact .inr (.inr (.inl ⟨.inr hnil, false, hnil, by simp [hnil]⟩))
      · exact .inr (.inr (.inr ⟨by simp [ht, hnil], by simp [ht, hnil]⟩))

theorem ofText_eq_number_iff {text : String} :
    (∃ x, Atom.ofText text = .number x) ↔ text.toList ∈ number := by
  rcases ofText_cases text with ⟨h, hx⟩ | ⟨h, content, -, hx⟩ | ⟨h, b, -, hx⟩ | ⟨h, hx⟩
  · exact iff_of_true hx h
  · exact iff_of_false (by simp [hx]) fun hnumber => not_quoted_of_number hnumber h
  · exact iff_of_false (by simp [hx]) (not_number_of_boolean h).1
  · exact iff_of_false (by simp [hx]) fun hnumber => h (.inl (.inl hnumber))

theorem ofText_eq_text_iff {text content : String} :
    Atom.ofText text = .text content ↔ Atom.quoted? text.toList = some content := by
  have hquoted : Atom.quoted? text.toList = some content → text.toList ∈ quoted := fun hq =>
    isSome_quoted?_iff.mp (by rw [hq]; rfl)
  rcases ofText_cases text with ⟨h, x, hx⟩ | ⟨h, content', hq, hx⟩ | ⟨h, b, -, hx⟩ | ⟨h, hx⟩
  · exact iff_of_false (by simp [hx]) fun hq => not_quoted_of_number h (hquoted hq)
  · rw [hx, hq, Atom.text.injEq, Option.some.injEq]
  · exact iff_of_false (by simp [hx]) fun hq => (not_number_of_boolean h).2 (hquoted hq)
  · exact iff_of_false (by simp [hx]) fun hq => h (.inl (.inr (hquoted hq)))

theorem ofText_eq_boolean_iff {text : String} {b : Bool} :
    Atom.ofText text = .boolean b ↔ text = if b then "t" else "nil" := by
  constructor
  · intro hb
    rcases ofText_cases text with ⟨-, x, hx⟩ | ⟨-, content, -, hx⟩ | ⟨-, b', ht, hx⟩ | ⟨-, hx⟩
    · cases hx.symm.trans hb
    · cases hx.symm.trans hb
    · cases hx.symm.trans hb
      exact ht
    · cases hx.symm.trans hb
  · rintro rfl
    cases b <;> rfl

theorem ofText_eq_symbol_iff {text name : String} :
    Atom.ofText text = .symbol name ↔ text.toList ∉ literal ∧ name = text := by
  rcases ofText_cases text with ⟨h, x, hx⟩ | ⟨h, content, -, hx⟩ | ⟨h, b, -, hx⟩ | ⟨h, hx⟩
  · exact iff_of_false (by simp [hx]) fun hs => hs.1 (.inl (.inl h))
  · exact iff_of_false (by simp [hx]) fun hs => hs.1 (.inl (.inr h))
  · exact iff_of_false (by simp [hx]) fun hs => hs.1 (.inr h)
  · rw [hx, Atom.symbol.injEq, and_iff_right h]
    exact eq_comm

/-- An atom is a text exactly if it is written as one. -/
theorem exists_ofText_eq_text_iff {text : String} :
    (∃ content, Atom.ofText text = .text content) ↔ text.toList ∈ quoted := by
  simp only [ofText_eq_text_iff]
  rw [← isSome_quoted?_iff, Option.isSome_iff_exists]

/-- An atom is a boolean exactly if it is one of the two words. -/
theorem exists_ofText_eq_boolean_iff {text : String} :
    (∃ b, Atom.ofText text = .boolean b) ↔ text.toList ∈ boolean := by
  simp only [ofText_eq_boolean_iff]
  rw [mem_boolean_iff, Bool.exists_bool]
  exact or_comm

end Literal

/-- **Which texts are literals.** A text spells a number exactly if it is one by the grammar: an
optional sign, digits with an optional point and digits behind it, or a point and digits, and
an optional exponent; or one of the words for infinities and for the value that is not a
number. It spells a text exactly if that stands between two double quotes, without a quote of
either kind or a line end in it; and the booleans have a word each. No text is of two of these
kinds. Every other text is the name that it is. What a text spells can be read off the longest
literal that it begins with, of whatever kind: if that ends where the text ends, the text is of
its kind; if it ends before, or if there is none, the text is a name. -/
theorem atoms_follow_literal_grammar (text : String) :
    ((∃ x, Atom.ofText text = .number x) ↔ text.toList ∈ Literal.number) ∧
    (∀ content, Atom.ofText text = .text content ↔ text = "\"" ++ content ++ "\"" ∧
      ∀ c ∈ content.toList, c ≠ '"' ∧ c ≠ '\'' ∧ c ≠ '\r' ∧ c ≠ '\n') ∧
    (∀ b, Atom.ofText text = .boolean b ↔ text = if b then "t" else "nil") ∧
    (∀ name, Atom.ofText text = .symbol name ↔ text.toList ∉ Literal.literal ∧ name = text) ∧
    ¬(text.toList ∈ Literal.number ∧ text.toList ∈ Literal.quoted) ∧
    ¬(text.toList ∈ Literal.number ∧ text.toList ∈ Literal.boolean) ∧
    ¬(text.toList ∈ Literal.quoted ∧ text.toList ∈ Literal.boolean) ∧
    ((∃ x, Atom.ofText text = .number x) ↔ ∃ p, Literal.LongestAtFront text.toList p ∧
      byteLength p = text.utf8ByteSize ∧ p ∈ Literal.number) ∧
    ((∃ content, Atom.ofText text = .text content) ↔ ∃ p, Literal.LongestAtFront text.toList p ∧
      byteLength p = text.utf8ByteSize ∧ p ∈ Literal.quoted) ∧
    ((∃ b, Atom.ofText text = .boolean b) ↔ ∃ p, Literal.LongestAtFront text.toList p ∧
      byteLength p = text.utf8ByteSize ∧ p ∈ Literal.boolean) ∧
    (Atom.ofText text = .symbol text ↔
      ¬∃ p, Literal.LongestAtFront text.toList p ∧ byteLength p = text.utf8ByteSize) := by
  refine ⟨Literal.ofText_eq_number_iff, fun content => ?_, fun b => Literal.ofText_eq_boolean_iff,
    fun name => Literal.ofText_eq_symbol_iff, fun h => Literal.not_quoted_of_number h.1 h.2,
    fun h => (Literal.not_number_of_boolean h.2).1 h.1,
    fun h => (Literal.not_number_of_boolean h.2).2 h.1, ?_, ?_, ?_, ?_⟩
  · rw [Literal.ofText_eq_text_iff, Literal.quoted?_toList_eq_some_iff]
  · rw [Literal.ofText_eq_number_iff, Literal.mem_iff_longest Literal.number_le_literal,
      byteLength_toList]
  · rw [Literal.exists_ofText_eq_text_iff, Literal.mem_iff_longest Literal.quoted_le_literal,
      byteLength_toList]
  · rw [Literal.exists_ofText_eq_boolean_iff, Literal.mem_iff_longest Literal.boolean_le_literal,
      byteLength_toList]
  · rw [Literal.ofText_eq_symbol_iff, Literal.mem_literal_iff_longest, byteLength_toList]
    exact and_iff_left rfl

-- texts that begin with a literal, and go on
example : Atom.ofText "1e+" = .symbol "1e+" ∧ Atom.ofText "1.2.3" = .symbol "1.2.3" ∧
    Atom.ofText "-infx" = .symbol "-infx" ∧ Atom.ofText "" = .symbol "" := by decide

end SmallLisp
