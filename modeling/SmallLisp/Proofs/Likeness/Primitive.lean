import SmallLisp.Primitive.Apply
import SmallLisp.Proofs.Likeness.Basic

/-!
# Primitives on data that are alike

A primitive applied to like arguments gives like results
(`SmallLisp.Primitive.apply_outcome`). Numbers are the same in like arguments, so what
is computed from them is the same; lists are taken apart and put together element by
element; and an error is about the same argument, at the span that it has there.
-/

namespace SmallLisp

namespace Primitive

open Terms

variable {T : Terms} {P Q : Pairing} {d e : Datum} {ds es : List Datum} {s t : Span}

/-! ### Arguments -/

theorem numberArg_outcome (p : Primitive) (position : Nat) (h : T.Value P Q d e) :
    T.Outcome P Eq (numberArg p position d) (numberArg p position e) := by
  cases h with
  | @atom a s t hspan =>
    cases a with
    | number x => exact .ok rfl
    | text | boolean | symbol => exact .error (.application hspan)
  | list _ hspan => exact .error (.application hspan)
  | primitive hspan => exact .error (.application hspan)
  | closure _ _ _ _ hspan => exact .error (.application hspan)

theorem listArg_outcome (p : Primitive) (h : T.Value P Q d e) :
    T.Outcome P (List.Forall₂ (T.Value P Q)) (listArg p d) (listArg p e) := by
  cases h with
  | @atom a s t hspan => cases a <;> exact .error (.application hspan)
  | list helements _ => exact .ok helements
  | primitive hspan => exact .error (.application hspan)
  | closure _ _ _ _ hspan => exact .error (.application hspan)

/-- A wrong number of arguments is wrong for like arguments as well. -/
theorem failure_exactly (p : Primitive) (expected : Nat) (h : List.Forall₂ (T.Value P Q) ds es)
    (hspan : T.span s t) : T.Failure P (exactly p expected ds s) (exactly p expected es t) := by
  rw [exactly, exactly, h.length_eq]
  exact .application hspan

theorem failure_atLeast (p : Primitive) (expected : Nat) (h : List.Forall₂ (T.Value P Q) ds es)
    (hspan : T.span s t) : T.Failure P (atLeast p expected ds s) (atLeast p expected es t) := by
  rw [atLeast, atLeast, h.length_eq]
  exact .application hspan

/-! ### Arithmetic -/

theorem foldNumbers_outcome (p : Primitive) (op : Float → Float → Float) (position : Nat)
    (acc : Float) (h : List.Forall₂ (T.Value P Q) ds es) :
    T.Outcome P Eq (foldNumbers p op position acc ds) (foldNumbers p op position acc es) := by
  induction h generalizing position acc with
  | nil => exact .ok rfl
  | cons hd _ ih =>
    refine (numberArg_outcome p position hd).bind ?_
    rintro x _ rfl
    exact ih (position + 1) (op acc x)

theorem foldDivisors_outcome (position : Nat) (acc : Float)
    (h : List.Forall₂ (T.Value P Q) ds es) :
    T.Outcome P Eq (foldDivisors position acc ds) (foldDivisors position acc es) := by
  induction h generalizing position acc with
  | nil => exact .ok rfl
  | cons hd _ ih =>
    refine (numberArg_outcome .div position hd).bind ?_
    rintro x _ rfl
    split
    -- a zero is reported at the divisor, not at the call
    · exact .error (.application hd.span)
    · exact ih (position + 1) (acc / x)

theorem subtract_outcome (h : List.Forall₂ (T.Value P Q) ds es) (hspan : T.span s t) :
    T.Outcome P Eq (subtract s ds) (subtract t es) := by
  cases h with
  | nil => exact .error (.application hspan)
  | cons hd htail =>
    cases htail with
    | nil =>
      refine (numberArg_outcome .sub 1 hd).bind ?_
      rintro x _ rfl
      exact .ok rfl
    | cons hd' htail =>
      refine (numberArg_outcome .sub 1 hd).bind ?_
      rintro x _ rfl
      exact foldNumbers_outcome .sub _ 2 x (.cons hd' htail)

theorem divide_outcome (h : List.Forall₂ (T.Value P Q) ds es) (hspan : T.span s t) :
    T.Outcome P Eq (divide s ds) (divide t es) := by
  cases h with
  | nil => exact .error (.application hspan)
  | cons hd htail =>
    cases htail with
    | nil => exact foldDivisors_outcome 1 1 (.cons hd .nil)
    | cons hd' htail =>
      refine (numberArg_outcome .div 1 hd).bind ?_
      rintro x _ rfl
      exact foldDivisors_outcome 2 x (.cons hd' htail)

/-! ### Comparison -/

theorem compareFrom_outcome (p : Primitive) (rel : Float → Float → Bool) (position : Nat)
    (x : Float) (h : List.Forall₂ (T.Value P Q) ds es) :
    T.Outcome P Eq (compareFrom p rel position x ds) (compareFrom p rel position x es) := by
  induction h generalizing position x with
  | nil => exact .ok rfl
  | cons hd _ ih =>
    refine (numberArg_outcome p position hd).bind ?_
    rintro y _ rfl
    refine (ih (position + 1) y).bind ?_
    rintro others _ rfl
    exact .ok rfl

theorem compareAll_outcome (p : Primitive) (rel : Float → Float → Bool)
    (h : List.Forall₂ (T.Value P Q) ds es) (hspan : T.span s t) :
    T.Outcome P Eq (compareAll p rel ds s) (compareAll p rel es t) := by
  cases h with
  | nil => exact .error (.application hspan)
  | cons hd htail =>
    cases htail with
    | nil => exact .error (.application hspan)
    | cons hd' htail =>
      refine (numberArg_outcome p 1 hd).bind ?_
      rintro x _ rfl
      exact compareFrom_outcome p rel 2 x (.cons hd' htail)

theorem neighboursSame_eq
    (hinj : ∀ i j i' j', Q.closures i j → Q.closures i' j' → (i = i' ↔ j = j'))
    (h : List.Forall₂ (T.Value P Q) ds es) : neighboursSame ds = neighboursSame es := by
  induction h with
  | nil => rfl
  | cons hd htail ih =>
    cases htail with
    | nil => rfl
    | cons hd' htail =>
      rw [neighboursSame, neighboursSame, hd.sameValue_eq hinj _ _ hd', ih]

/-! ### Application -/

theorem hasKind_outcome (p : Primitive) (kind : Datum.Kind)
    (h : List.Forall₂ (T.Value P Q) ds es) (hspan : T.span s t) :
    T.Outcome P (T.Value P Q) (hasKind p kind ds s) (hasKind p kind es t) := by
  cases h with
  | nil => exact .error (.application hspan)
  | cons hd htail =>
    cases htail with
    | nil =>
      rw [hasKind, hasKind, hd.kind_eq]
      exact .ok (.atom hspan)
    | cons hd' htail => exact .error (failure_exactly p 1 (.cons hd (.cons hd' htail)) hspan)

/-- A number or a boolean that a primitive makes of the same result. -/
theorem outcome_atom {α : Type} {r r' : Except EvalError α} (h : T.Outcome P Eq r r')
    (make : α → Atom) (hspan : T.span s t) :
    T.Outcome P (T.Value P Q) (r.map fun x => .atom (make x) s)
      (r'.map fun x => .atom (make x) t) := by
  refine h.map ?_
  rintro x _ rfl
  exact .atom hspan

theorem car_outcome (h : List.Forall₂ (T.Value P Q) ds es) (hspan : T.span s t) :
    T.Outcome P (T.Value P Q) (apply .car ds s) (apply .car es t) := by
  cases h with
  | nil => exact .error (.application hspan)
  | cons hd htail =>
    cases htail with
    | nil =>
      refine (listArg_outcome .car hd).bind ?_
      intro xs ys hxs
      cases hxs with
      | nil => exact .error (.application hd.span)
      | cons hx _ => exact .ok hx
    | cons hd' htail => exact .error (failure_exactly .car 1 (.cons hd (.cons hd' htail)) hspan)

theorem cdr_outcome (h : List.Forall₂ (T.Value P Q) ds es) (hspan : T.span s t) :
    T.Outcome P (T.Value P Q) (apply .cdr ds s) (apply .cdr es t) := by
  cases h with
  | nil => exact .error (.application hspan)
  | cons hd htail =>
    cases htail with
    | nil =>
      refine (listArg_outcome .cdr hd).bind ?_
      intro xs ys hxs
      refine .ok (.list ?_ hspan)
      cases hxs with
      | nil => exact .nil
      | cons _ hxs => exact hxs
    | cons hd' htail => exact .error (failure_exactly .cdr 1 (.cons hd (.cons hd' htail)) hspan)

theorem cons_outcome (h : List.Forall₂ (T.Value P Q) ds es) (hspan : T.span s t) :
    T.Outcome P (T.Value P Q) (apply .cons ds s) (apply .cons es t) := by
  have hwrong := failure_exactly .cons 2 h hspan
  cases h with
  | nil => exact .error hwrong
  | cons hd htail =>
    cases htail with
    | nil => exact .error hwrong
    | cons hd' htail =>
      cases htail with
      | nil =>
        refine (listArg_outcome .cons hd').bind ?_
        exact fun xs ys hxs => .ok (.list (.cons hd hxs) hspan)
      | cons => exact .error hwrong

theorem isNull_outcome (h : List.Forall₂ (T.Value P Q) ds es) (hspan : T.span s t) :
    T.Outcome P (T.Value P Q) (apply .isNull ds s) (apply .isNull es t) := by
  have hwrong := failure_exactly .isNull 1 h hspan
  cases h with
  | nil => exact .error hwrong
  | cons hd htail =>
    cases htail with
    | nil =>
      cases hd with
      | list helements _ => cases helements <;> exact .ok (.atom hspan)
      | atom | primitive | closure => exact .ok (.atom hspan)
    -- the first argument is looked at before the others are counted
    | cons => cases hd <;> exact .error hwrong

/-- **A primitive applied to like arguments gives like results**, if no closure stands
for two. -/
theorem apply_outcome
    (hinj : ∀ i j i' j', Q.closures i j → Q.closures i' j' → (i = i' ↔ j = j')) (p : Primitive)
    (h : List.Forall₂ (T.Value P Q) ds es) (hspan : T.span s t) :
    T.Outcome P (T.Value P Q) (p.apply ds s) (p.apply es t) := by
  cases p with
  | add => exact outcome_atom (foldNumbers_outcome .add _ 1 0 h) .number hspan
  | sub => exact outcome_atom (subtract_outcome h hspan) .number hspan
  | mul => exact outcome_atom (foldNumbers_outcome .mul _ 1 1 h) .number hspan
  | div => exact outcome_atom (divide_outcome h hspan) .number hspan
  | equal =>
    rw [apply, apply, h.length_eq]
    split
    · exact .error (failure_atLeast .equal 2 h hspan)
    · rw [neighboursSame_eq hinj h]
      exact .ok (.atom hspan)
  | less => exact outcome_atom (compareAll_outcome .less _ h hspan) .boolean hspan
  | lessEq => exact outcome_atom (compareAll_outcome .lessEq _ h hspan) .boolean hspan
  | greater => exact outcome_atom (compareAll_outcome .greater _ h hspan) .boolean hspan
  | greaterEq => exact outcome_atom (compareAll_outcome .greaterEq _ h hspan) .boolean hspan
  | car => exact car_outcome h hspan
  | cdr => exact cdr_outcome h hspan
  | cons => exact cons_outcome h hspan
  | list => exact .ok (.list h hspan)
  | isNull => exact isNull_outcome h hspan
  | isNumber => exact hasKind_outcome .isNumber .number h hspan
  | isBoolean => exact hasKind_outcome .isBoolean .boolean h hspan
  | isSymbol => exact hasKind_outcome .isSymbol .symbol h hspan
  | isString => exact hasKind_outcome .isString .string h hspan
  | isProcedure => exact hasKind_outcome .isProcedure .procedure h hspan

end Primitive

end SmallLisp
