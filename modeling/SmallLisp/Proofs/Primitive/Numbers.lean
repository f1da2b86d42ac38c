import Mathlib.Data.List.Forall2
import Mathlib.Data.Nat.Find
import SmallLisp.Primitive.Apply
import SmallLisp.Proofs.Messages

/-!
# The primitives on numbers

Eight primitives take numbers only: the four of arithmetic and the four that compare. Each has a
loop of its own over its arguments, and some look at the first argument apart from the others.
But all of them do two things one after the other, as this file shows
(`SmallLisp.Primitive.apply_eq_checkFrom`): they check their arguments from left to right, up to
the first that is refused, and if none is, they compute something of the numbers
(`SmallLisp.Primitive.ofNumbers`).

What is checked of an argument depends on its index and on the number of arguments: it has to be a
number, and if it is a divisor, not zero (`SmallLisp.Primitive.Offends`). So the error is that of
the first argument that offends, whatever stands behind it and whatever has been computed of the
arguments in front of it. Its message says which argument that is and what stands there instead of
a number (`SmallLisp.Primitive.Offends.message_of_kind_ne`), and no other message says the same.
-/

namespace SmallLisp

namespace Primitive

/-! ### What is asked of the arguments -/

/-- The number of arguments that a primitive on numbers needs at least; the others are none. -/
def leastNumbers? : Primitive → Option Nat
  | .add | .mul => some 0
  | .sub | .div => some 1
  | .less | .lessEq | .greater | .greaterEq => some 2
  | _ => none

/-- **An argument offends**, as the one with index `i` among `count`: it is not a number, or it is a
divisor and equals zero. Divisors are all arguments but the first, or the only one. The error is
at the argument, and positions are counted from one. -/
inductive Offends (p : Primitive) (count i : Nat) : Datum → EvalError → Prop
  | notNumber {d : Datum} (hkind : d.kind ≠ .number) :
    Offends p count i d (.application (.notNumber p (i + 1) d.kind) d.span)
  | zeroDivisor {x : Float} {s : Span} (hp : p = .div) (hi : 0 < i ∨ count = 1)
    (hx : (x == 0) = true) : Offends p count i (.number x s) (.application .divisionByZero s)

/-- The number that an argument is, unless it offends. -/
def checkArg (p : Primitive) (count i : Nat) (d : Datum) : Except EvalError Float := do
  let x ← numberArg p (i + 1) d
  if p = .div ∧ (0 < i ∨ count = 1) ∧ (x == 0) = true then
    .error (.application .divisionByZero d.span)
  else .ok x

theorem numberArg_number (p : Primitive) (position : Nat) (x : Float) (s : Span) :
    numberArg p position (.number x s) = .ok x := rfl

theorem numberArg_of_kind_ne (p : Primitive) (position : Nat) {d : Datum}
    (h : d.kind ≠ .number) :
    numberArg p position d = .error (.application (.notNumber p position d.kind) d.span) := by
  rcases d with ⟨_ | _ | _ | _, _⟩ | _ | _ | _
  case atom.number => exact absurd rfl h
  all_goals rfl

theorem exists_number_of_kind_eq {d : Datum} (h : d.kind = .number) : ∃ x s, d = .number x s := by
  rcases d with ⟨x | _ | _ | _, s⟩ | _ | _ | _
  case atom.number => exact ⟨x, s, rfl⟩
  all_goals cases h

variable {p : Primitive} {count i k : Nat} {d : Datum} {ds : List Datum}

/-- The check refuses an argument that offends, with the error of the offence. -/
theorem checkArg_eq_error_iff {e : EvalError} :
    checkArg p count i d = .error e ↔ p.Offends count i d e := by
  by_cases hkind : d.kind = .number
  · obtain ⟨x, s, rfl⟩ := exists_number_of_kind_eq hkind
    rw [checkArg, numberArg_number]
    change ite _ _ _ = _ ↔ _
    split
    · next h =>
      obtain ⟨hp, hi, hx⟩ := h
      constructor
      · rintro ⟨⟩
        exact .zeroDivisor hp hi hx
      · rintro (hne | _)
        · exact absurd hkind hne
        · rfl
    · next h =>
      refine ⟨nofun, ?_⟩
      rintro (hne | ⟨hp, hi, hx⟩)
      · exact absurd hkind hne
      · exact absurd ⟨hp, hi, hx⟩ h
  · rw [checkArg, numberArg_of_kind_ne p (i + 1) hkind]
    constructor
    · rintro ⟨⟩
      exact .notNumber hkind
    · rintro (_ | _)
      · rfl
      · exact absurd rfl hkind

namespace Offends

variable {e : EvalError}

/-- The error of an offence is at the argument. -/
theorem span_eq (h : p.Offends count i d e) : e.span = d.span := by
  cases h <;> rfl

/-- A number offends as a divisor that is zero. -/
theorem message_of_kind_eq (h : p.Offends count i d e) (hkind : d.kind = .number) :
    e.message = "Evaluation Error: Division by zero" := by
  cases h with
  | notNumber hne => exact absurd hkind hne
  | zeroDivisor => rfl

/-- An argument that is no number offends by that alone. -/
theorem eq_of_kind_ne (h : p.Offends count i d e) (hkind : d.kind ≠ .number) :
    e = .application (.notNumber p (i + 1) d.kind) d.span := by
  cases h with
  | notNumber => rfl
  | zeroDivisor => exact absurd rfl hkind

/-- **The message names the primitive, the position of the argument and its kind**, if it is no
number. -/
theorem message_of_kind_ne (h : p.Offends count i d e) (hkind : d.kind ≠ .number) :
    e.message = "Evaluation Error: Primitive '" ++ p.name ++ "' expects a number for argument " ++
      toString (i + 1) ++ ", got " ++ d.kind.name := by
  have hwords : "Evaluation Error: Primitive '" = "Evaluation Error: " ++ "Primitive '" := by decide
  rw [h.eq_of_kind_ne hkind, hwords]
  change "Evaluation Error: " ++ ("Primitive '" ++ p.name ++ "' expects a number for argument " ++
    toString (i + 1) ++ ", got " ++ d.kind.name) = _
  simp only [String.append_assoc]

/-- No other error has this message, but for where it is. -/
theorem exists_span_of_message_eq (h : p.Offends count i d e) (hkind : d.kind ≠ .number)
    {e' : EvalError} (hmessage : e'.message = e.message) :
    ∃ s, e' = .application (.notNumber p (i + 1) d.kind) s := by
  rw [h.eq_of_kind_ne hkind, EvalError.message_eq_iff] at hmessage
  cases hmessage
  exact ⟨_, rfl⟩

end Offends

/-- A number only offends as a divisor. -/
theorem not_offends_number (hp : p ≠ .div) {x : Float} {s : Span} {e : EvalError} :
    ¬p.Offends count i (.number x s) e := by
  rintro (hkind | ⟨h, -, -⟩)
  · exact hkind rfl
  · exact hp h

/-- The check gives the number that the argument is. -/
theorem exists_number_of_checkArg {x : Float} (h : checkArg p count i d = .ok x) :
    ∃ s, d = .number x s := by
  by_cases hkind : d.kind = .number
  · obtain ⟨y, s, rfl⟩ := exists_number_of_kind_eq hkind
    rw [checkArg, numberArg_number] at h
    change ite _ _ _ = _ at h
    split at h
    · cases h
    · cases h
      exact ⟨s, rfl⟩
  · rw [checkArg, numberArg_of_kind_ne p (i + 1) hkind] at h
    cases h

/-- An argument that is no divisor only has to be a number. -/
theorem checkArg_eq_numberArg (h : ¬(p = .div ∧ (0 < i ∨ count = 1))) :
    checkArg p count i d = numberArg p (i + 1) d := by
  rw [checkArg]
  rcases numberArg p (i + 1) d with e | x
  · rfl
  · exact if_neg fun hzero => h ⟨hzero.1, hzero.2.1⟩

/-! ### Checking one argument after the other -/

/-- Checks arguments from left to right, the first of which has the index `k`. -/
def checkFrom (check : Nat → Datum → Except EvalError Float) :
    Nat → List Datum → Except EvalError (List Float)
  | _, [] => .ok []
  | k, d :: ds => do
    let x ← check k d
    let xs ← checkFrom check (k + 1) ds
    return x :: xs

section Check

variable {check : Nat → Datum → Except EvalError Float}

theorem checkFrom_cons_of_error {e : EvalError} (h : check k d = .error e) :
    checkFrom check k (d :: ds) = .error e := by
  rw [checkFrom, h]
  rfl

theorem checkFrom_cons_of_ok {x : Float} (h : check k d = .ok x) :
    checkFrom check k (d :: ds) = (checkFrom check (k + 1) ds).map (x :: ·) := by
  rw [checkFrom, h]
  rcases checkFrom check (k + 1) ds with e | xs <;> rfl

theorem map_eq_error_iff {β : Type} {f : List Float → β} {r : Except EvalError (List Float)}
    {e : EvalError} : r.map f = .error e ↔ r = .error e := by
  rcases r with e' | xs <;> simp [Except.map]

/-- **The error is that of the first argument that is refused.** -/
theorem checkFrom_eq_error_iff {e : EvalError} :
    checkFrom check k ds = .error e ↔ ∃ i d, ds[i]? = some d ∧ check (k + i) d = .error e ∧
      ∀ j < i, ∀ d' e', ds[j]? = some d' → check (k + j) d' ≠ .error e' := by
  induction ds generalizing k with
  | nil => simp [checkFrom]
  | cons d ds ih =>
    rcases hd : check k d with e' | x
    · rw [checkFrom_cons_of_error hd, Except.error.injEq]
      constructor
      · rintro rfl
        exact ⟨0, d, rfl, hd, fun j hj => absurd hj j.not_lt_zero⟩
      · rintro ⟨i, d', hi, herror, hbefore⟩
        -- no argument stands in front of the first
        obtain rfl : i = 0 := by
          by_contra hne
          exact hbefore 0 (Nat.pos_of_ne_zero hne) d e' rfl hd
        obtain rfl : d = d' := Option.some.inj hi
        exact Except.error.inj (hd.symm.trans herror)
    · rw [checkFrom_cons_of_ok hd, map_eq_error_iff, ih]
      constructor
      · rintro ⟨i, d', hi, herror, hbefore⟩
        refine ⟨i + 1, d', hi, by rwa [Nat.add_right_comm] at herror, fun j hj d'' e'' hj' => ?_⟩
        rcases j with - | j
        · obtain rfl : d = d'' := Option.some.inj hj'
          rw [Nat.add_zero, hd]
          exact nofun
        · have := hbefore j (Nat.lt_of_succ_lt_succ hj) d'' e'' hj'
          rwa [Nat.add_right_comm] at this
      · rintro ⟨i, d', hi, herror, hbefore⟩
        rcases i with - | i
        · obtain rfl : d = d' := Option.some.inj hi
          rw [Nat.add_zero, hd] at herror
          cases herror
        · refine ⟨i, d', hi, by rwa [Nat.add_right_comm], fun j hj d'' e'' hj' => ?_⟩
          have := hbefore (j + 1) (Nat.succ_lt_succ hj) d'' e'' hj'
          rwa [Nat.add_right_comm]

/-- Some argument is refused if there is one to refuse. -/
theorem exists_checkFrom_eq_error_iff : (∃ e, checkFrom check k ds = .error e) ↔
    ∃ i d e, ds[i]? = some d ∧ check (k + i) d = .error e := by
  simp only [checkFrom_eq_error_iff]
  constructor
  · rintro ⟨e, i, d, hi, herror, -⟩
    exact ⟨i, d, e, hi, herror⟩
  · intro h
    classical
    obtain ⟨d, e, hi, herror⟩ := Nat.find_spec h
    exact ⟨e, Nat.find h, d, hi, herror, fun j hj d' e' hj' herror' =>
      Nat.find_min h hj ⟨d', e', hj', herror'⟩⟩

/-- What is given is given argument by argument. -/
theorem forall₂_of_checkFrom {R : Datum → Float → Prop}
    (hR : ∀ i d x, check i d = .ok x → R d x) {xs : List Float}
    (h : checkFrom check k ds = .ok xs) : List.Forall₂ R ds xs := by
  induction ds generalizing k xs with
  | nil =>
    cases h
    exact .nil
  | cons d ds ih =>
    rcases hd : check k d with e | x
    · rw [checkFrom_cons_of_error hd] at h
      cases h
    · rw [checkFrom_cons_of_ok hd] at h
      rcases hds : checkFrom check (k + 1) ds with e | ys
      · rw [hds] at h
        cases h
      · rw [hds] at h
        cases h
        exact .cons (hR k d x hd) (ih hds)

end Check

/-! ### The loops -/

/-- A sum or a product or a difference: the arguments are checked, then they are folded. -/
theorem foldNumbers_eq_checkFrom (hp : p ≠ .div) (count k : Nat) (op : Float → Float → Float)
    (acc : Float) : foldNumbers p op (k + 1) acc ds =
      (checkFrom (checkArg p count) k ds).map (List.foldl op acc) := by
  induction ds generalizing k acc with
  | nil => rfl
  | cons d ds ih =>
    have hcheck : checkArg p count k d = numberArg p (k + 1) d :=
      checkArg_eq_numberArg fun h => hp h.1
    rw [foldNumbers, checkFrom, hcheck]
    rcases numberArg p (k + 1) d with e | x
    · rfl
    · change foldNumbers p op (k + 1 + 1) (op acc x) ds = _
      rw [ih]
      rcases checkFrom (checkArg p count) (k + 1) ds with e | xs <;> rfl

/-- A quotient: all arguments are divisors here. -/
theorem foldDivisors_eq_checkFrom (count k : Nat) (hk : 0 < k ∨ count = 1) (acc : Float) :
    foldDivisors (k + 1) acc ds =
      (checkFrom (checkArg .div count) k ds).map (List.foldl (· / ·) acc) := by
  induction ds generalizing k acc with
  | nil => rfl
  | cons d ds ih =>
    rw [foldDivisors]
    rcases hd : numberArg .div (k + 1) d with e | x
    · have hcheck : checkArg .div count k d = .error e := by
        rw [checkArg, hd]
        rfl
      rw [checkFrom_cons_of_error hcheck]
      rfl
    · change (if (x == 0) = true then _ else foldDivisors (k + 1 + 1) (acc / x) ds) = _
      by_cases hx : (x == 0) = true
      · have hcheck : checkArg .div count k d = .error (.application .divisionByZero d.span) := by
          rw [checkArg, hd]
          exact if_pos ⟨rfl, hk, hx⟩
        rw [if_pos hx, checkFrom_cons_of_error hcheck]
        rfl
      · have hcheck : checkArg .div count k d = .ok x := by
          rw [checkArg, hd]
          exact if_neg fun h => hx h.2.2
        rw [if_neg hx, checkFrom_cons_of_ok hcheck, ih (k + 1) (.inl k.succ_pos)]
        rcases checkFrom (checkArg .div count) (k + 1) ds with e | xs <;> rfl

/-- A comparison goes on with its checks after it is known to be false. -/
theorem compareFrom_eq_checkFrom (hp : p ≠ .div) (count k : Nat) (rel : Float → Float → Bool)
    (x : Float) : compareFrom p rel (k + 1) x ds = (checkFrom (checkArg p count) k ds).map fun xs =>
      decide ((x :: xs).IsChain fun x y => rel x y = true) := by
  induction ds generalizing k x with
  | nil => simp [compareFrom, checkFrom, Except.map]
  | cons d ds ih =>
    have hcheck : checkArg p count k d = numberArg p (k + 1) d :=
      checkArg_eq_numberArg fun h => hp h.1
    rw [compareFrom, checkFrom, hcheck]
    rcases numberArg p (k + 1) d with e | y
    · rfl
    · change (compareFrom p rel (k + 1 + 1) y ds >>= _) = _
      rw [ih]
      rcases checkFrom (checkArg p count) (k + 1) ds with e | xs
      · rfl
      · simp [Except.map, bind, Except.bind, pure, Except.pure]

/-! ### What is computed -/

/-- **What a primitive makes of numbers**, given as many as it needs: the left fold from zero or
one, the left fold from the first number or, of a single one, the negation or the reciprocal, and
whether a relation holds between all neighbours. -/
def ofNumbers : Primitive → List Float → Atom
  | .add, xs => .number (xs.foldl (· + ·) 0)
  | .mul, xs => .number (xs.foldl (· * ·) 1)
  | .sub, [x] => .number (-x)
  | .sub, x :: xs => .number (xs.foldl (· - ·) x)
  | .div, [x] => .number (1 / x)
  | .div, x :: xs => .number (xs.foldl (· / ·) x)
  | .less, xs => .boolean (decide (xs.IsChain (· < ·)))
  | .lessEq, xs => .boolean (decide (xs.IsChain (· ≤ ·)))
  | .greater, xs => .boolean (decide (xs.IsChain (· > ·)))
  | .greaterEq, xs => .boolean (decide (xs.IsChain (· ≥ ·)))
  | _, _ => .boolean false

/-- As many numbers are given as there are arguments. -/
theorem length_of_checkFrom {check : Nat → Datum → Except EvalError Float} {xs : List Float}
    (h : checkFrom check k ds = .ok xs) : ds.length = xs.length :=
  (forall₂_of_checkFrom (R := fun _ _ => True) (fun _ _ _ _ => trivial) h).length_eq

/-- The first argument is looked at apart, and what is computed of it and of the others is what is
computed of all of them. -/
theorem map_bind_checkFrom {β γ : Type} {check : Nat → Datum → Except EvalError Float}
    {g : Float → List Float → β} {make : β → γ} {whole : List Float → γ}
    (h : ∀ x xs, ds.length = xs.length → make (g x xs) = whole (x :: xs)) :
    (check k d >>= fun x => (checkFrom check (k + 1) ds).map (g x)).map make =
      (checkFrom check k (d :: ds)).map whole := by
  rcases hd : check k d with e | x
  · rw [checkFrom_cons_of_error hd]
    rfl
  · rw [checkFrom_cons_of_ok hd]
    rcases hds : checkFrom check (k + 1) ds with e | xs
    · rfl
    · exact congrArg Except.ok (h x xs (length_of_checkFrom hds))

/-- What is computed of a single argument. -/
theorem map_checkFrom_singleton {γ : Type} {check : Nat → Datum → Except EvalError Float}
    (whole : List Float → γ) :
    (checkFrom check k [d]).map whole = (check k d).map fun x => whole [x] := by
  rw [checkFrom]
  rcases check k d with e | x <;> rfl

section Apply

variable (d : Datum) (ds : List Datum) (span : Span)

theorem apply_sub_eq_checkFrom :
    apply .sub (d :: ds) span = (checkFrom (checkArg .sub (d :: ds).length) 0 (d :: ds)).map
      fun xs => .atom (ofNumbers .sub xs) span := by
  have hfirst : numberArg .sub 1 d = checkArg .sub (d :: ds).length 0 d :=
    (checkArg_eq_numberArg (by simp)).symm
  rcases ds with - | ⟨e, ds⟩
  · rw [apply, subtract, hfirst, map_checkFrom_singleton]
    rcases checkArg .sub [d].length 0 d with e | x <;> rfl
  · rw [apply, subtract, hfirst]
    · simp only [foldNumbers_eq_checkFrom (p := .sub) (by decide) (d :: e :: ds).length 1]
      refine map_bind_checkFrom fun x xs hlength => ?_
      -- there is a second number, so nothing is negated
      obtain ⟨y, ys, rfl⟩ := List.exists_cons_of_length_eq_add_one hlength.symm
      rfl
    · exact fun h => nomatch h

theorem apply_div_eq_checkFrom :
    apply .div (d :: ds) span = (checkFrom (checkArg .div (d :: ds).length) 0 (d :: ds)).map
      fun xs => .atom (ofNumbers .div xs) span := by
  rcases ds with - | ⟨e, ds⟩
  · -- the only argument is the divisor of one
    rw [apply, divide, foldDivisors_eq_checkFrom [d].length 0 (.inr rfl),
      map_checkFrom_singleton, map_checkFrom_singleton]
    rcases checkArg .div [d].length 0 d with e | x <;> rfl
  · have hfirst : numberArg .div 1 d = checkArg .div (d :: e :: ds).length 0 d :=
      (checkArg_eq_numberArg (by simp)).symm
    rw [apply, divide, hfirst]
    · simp only [foldDivisors_eq_checkFrom (d :: e :: ds).length 1 (.inl Nat.one_pos)]
      refine map_bind_checkFrom fun x xs hlength => ?_
      -- there is a second number, so the first is no divisor
      obtain ⟨y, ys, rfl⟩ := List.exists_cons_of_length_eq_add_one hlength.symm
      rfl
    · exact fun h => nomatch h

/-- The four comparisons, which differ in the relation only. -/
theorem map_compareAll_eq_checkFrom (hp : p ≠ .div) (rel : Float → Float → Bool) (e : Datum) :
    (compareAll p rel (d :: e :: ds) span).map (Datum.boolean · span) =
      (checkFrom (checkArg p (d :: e :: ds).length) 0 (d :: e :: ds)).map fun xs =>
        .boolean (decide (xs.IsChain fun x y => rel x y = true)) span := by
  have hfirst : numberArg p 1 d = checkArg p (d :: e :: ds).length 0 d :=
    (checkArg_eq_numberArg fun h => hp h.1).symm
  rw [compareAll, hfirst]
  simp only [compareFrom_eq_checkFrom hp (d :: e :: ds).length 1]
  exact map_bind_checkFrom fun x xs _ => rfl

end Apply

/-- **A primitive on numbers checks its arguments, then computes.** -/
theorem apply_eq_checkFrom {least : Nat} (hp : p.leastNumbers? = some least) {args : List Datum}
    (hleast : least ≤ args.length) (span : Span) :
    p.apply args span = (checkFrom (checkArg p args.length) 0 args).map
      fun xs => .atom (p.ofNumbers xs) span := by
  cases p <;> cases hp
  case add | mul =>
    rw [apply, foldNumbers_eq_checkFrom (by decide) args.length 0]
    rcases checkFrom _ 0 args with e | xs <;> rfl
  case sub =>
    obtain ⟨d, ds, rfl⟩ := List.exists_cons_of_length_pos hleast
    exact apply_sub_eq_checkFrom d ds span
  case div =>
    obtain ⟨d, ds, rfl⟩ := List.exists_cons_of_length_pos hleast
    exact apply_div_eq_checkFrom d ds span
  all_goals
    obtain ⟨d, e, ds, rfl⟩ : ∃ d e ds, args = d :: e :: ds := by
      match args, hleast with
      | d :: e :: ds, _ => exact ⟨d, e, ds, rfl⟩
    rw [apply, map_compareAll_eq_checkFrom d ds span (by decide)]
    simp [ofNumbers]

/-- Too few arguments are an error at the call. -/
theorem apply_of_length_lt {least : Nat} (hp : p.leastNumbers? = some least) {args : List Datum}
    (h : args.length < least) (span : Span) :
    p.apply args span = .error (.application (.leastArity p least args.length) span) := by
  cases p <;> cases hp
  case add | mul => exact absurd h args.length.not_lt_zero
  case sub | div =>
    obtain rfl : args = [] := List.length_eq_zero_iff.1 (Nat.lt_one_iff.1 h)
    rfl
  all_goals
    match args, h with
    | [], _ => rfl
    | [_], _ => rfl

end Primitive

/-! ### The leftmost argument that offends -/

/-- **The primitives on numbers report the leftmost argument that offends.** With too few arguments
the error is at the call. With enough, a call fails if and only if some argument offends, the
error is that of the first one, and if there is none, the arguments are numbers and the value is
what the primitive makes of them. The error is at the argument. If that is no number, the message
gives the name of the primitive, the position of the argument, counted from one, and the word for
its kind, and no error of another primitive, position or kind has that message. -/
theorem numeric_primitives_report_leftmost {p : Primitive} {least : Nat}
    (hp : p.leastNumbers? = some least) (args : List Datum) (span : Span) :
    (args.length < least →
      p.apply args span = .error (.application (.leastArity p least args.length) span)) ∧
    (least ≤ args.length →
      ((∃ e, p.apply args span = .error e) ↔
        ∃ i d e, args[i]? = some d ∧ p.Offends args.length i d e) ∧
      (∀ e, p.apply args span = .error e ↔
        ∃ i d, args[i]? = some d ∧ p.Offends args.length i d e ∧
          ∀ j < i, ∀ d' e', args[j]? = some d' → ¬p.Offends args.length j d' e') ∧
      (∀ e, p.apply args span = .error e →
        ∃ i d, args[i]? = some d ∧ p.Offends args.length i d e ∧
          (∀ j < i, ∀ d' e', args[j]? = some d' → ¬p.Offends args.length j d' e') ∧
          e.span = d.span ∧
          (d.kind = .number → e.message = "Evaluation Error: Division by zero") ∧
          (d.kind ≠ .number →
            e.message = "Evaluation Error: Primitive '" ++ p.name ++
              "' expects a number for argument " ++ toString (i + 1) ++ ", got " ++ d.kind.name ∧
            ∀ e' : EvalError, e'.message = e.message →
              ∃ s, e' = .application (.notNumber p (i + 1) d.kind) s)) ∧
      ((∀ i d e, args[i]? = some d → ¬p.Offends args.length i d e) →
        ∃ xs, List.Forall₂ (fun d x => ∃ s, d = .number x s) args xs ∧
          p.apply args span = .ok (.atom (p.ofNumbers xs) span))) := by
  refine ⟨fun h => Primitive.apply_of_length_lt hp h span, fun hleast => ?_⟩
  rw [Primitive.apply_eq_checkFrom hp hleast]
  simp only [Primitive.map_eq_error_iff]
  have herror : ∀ e, Primitive.checkFrom (Primitive.checkArg p args.length) 0 args = .error e ↔
      ∃ i d, args[i]? = some d ∧ p.Offends args.length i d e ∧
        ∀ j < i, ∀ d' e', args[j]? = some d' → ¬p.Offends args.length j d' e' := by
    intro e
    simp only [Primitive.checkFrom_eq_error_iff, Primitive.checkArg_eq_error_iff, Nat.zero_add, Ne]
  refine ⟨?_, herror, fun e he => ?_, fun hnone => ?_⟩
  · simp only [Primitive.exists_checkFrom_eq_error_iff, Primitive.checkArg_eq_error_iff,
      Nat.zero_add]
  · obtain ⟨i, d, hi, hoffends, hbefore⟩ := (herror e).1 he
    exact ⟨i, d, hi, hoffends, hbefore, hoffends.span_eq, hoffends.message_of_kind_eq,
      fun hkind => ⟨hoffends.message_of_kind_ne hkind,
        fun e' => hoffends.exists_span_of_message_eq hkind⟩⟩
  · rcases hcheck : Primitive.checkFrom (Primitive.checkArg p args.length) 0 args with e | xs
    · obtain ⟨i, d, hi, hoffends, -⟩ := (herror e).1 hcheck
      exact absurd hoffends (hnone i d e hi)
    · refine ⟨xs, ?_, rfl⟩
      refine Primitive.forall₂_of_checkFrom ?_ hcheck
      exact fun i d x => Primitive.exists_number_of_checkArg

/-- In a call of `<` with the arguments `5`, `3`, a string and the empty list, the first comparison
is false and the last argument offends too; the error is that of the string, the third. -/
theorem failed_comparison_hides_no_error :
    let args : List Datum := [.number 5 ⟨3, 4⟩, .number 3 ⟨5, 6⟩, .atom (.text "three") ⟨7, 14⟩,
      .list [] ⟨15, 17⟩]
    let e : EvalError := .application (.notNumber .less 3 .string) ⟨7, 14⟩
    Primitive.leastNumbers? .less = some 2 ∧ Primitive.apply .less args ⟨0, 18⟩ = .error e ∧
      e.message =
        "Evaluation Error: Primitive '<' expects a number for argument 3, got string" := by
  intro args e
  have hcall :=
    (numeric_primitives_report_leftmost (p := .less) rfl args ⟨0, 18⟩).2 (by simp [args])
  refine ⟨rfl, (hcall.2.1 e).2 ⟨2, .atom (.text "three") ⟨7, 14⟩, rfl,
    .notNumber (fun h => nomatch h), ?_⟩, by decide⟩
  rintro (- | - | j) hj d' e' hd'
  · cases hd'
    exact Primitive.not_offends_number (by decide)
  · cases hd'
    exact Primitive.not_offends_number (by decide)
  · omega

end SmallLisp
