import SmallLisp.Primitive.Apply
import SmallLisp.Proofs.Eval.Forms

/-!
# What primitives and special forms pass on

A primitive puts numbers, booleans and lists at the place of its call, and takes everything else
from its arguments. The error of a call is at the call or at the argument that is wrong. A special
form takes its operands apart; its error is at the form, or hands on what stands in the place of a
name.

So a property of data goes over from the arguments or operands to what comes of them, as soon as
it is one that lists share with their elements and that what is made has as well. With it goes a
property of errors. `SmallLisp.PassedOn` says what has to be known of the two, and then
`SmallLisp.PassedOn.meets_apply` is **the result of any primitive**, and
`SmallLisp.PassedOn.meets_ofOperands` that of taking the operands of any keyword apart.
-/

namespace SmallLisp

/-! ### Results -/

section Meets

variable {ε α β : Type} {E : ε → Prop} {Q : α → Prop} {R : β → Prop}

/-- A result that is right: a value with one property, or an error with another. -/
def Meets (E : ε → Prop) (Q : α → Prop) : Except ε α → Prop
  | .ok a => Q a
  | .error e => E e

/-- One computation after the other: the second is given a right value. -/
theorem Meets.bind {x : Except ε α} {f : α → Except ε β} (hx : Meets E Q x)
    (hf : ∀ a, Q a → Meets E R (f a)) : Meets E R (x >>= f) := by
  cases x with
  | error e => exact hx
  | ok a => exact hf a hx

theorem Meets.map {x : Except ε α} (hx : Meets E Q x) {g : α → β} (hg : ∀ a, Q a → R (g a)) :
    Meets E R (x.map g) := by
  cases x with
  | error e => exact hx
  | ok a => exact hg a hx

end Meets

/-- **A property of data that is passed on at a place, with a property of errors.** -/
structure PassedOn (span : Span) (E : EvalError → Prop) (P : Datum → Prop) : Prop where
  /-- A number that is made has the property. -/
  number : ∀ x, P (.number x span)
  /-- So does a boolean. -/
  boolean : ∀ b, P (.boolean b span)
  /-- A list that is made has it, if its elements have. -/
  list : ∀ es, (∀ e ∈ es, P e) → P (.list es span)
  /-- The elements of a list have it, if the list has. -/
  element : ∀ es s, P (.list es s) → ∀ e ∈ es, P e
  /-- A call that fails is at the place. -/
  call : ∀ fault, E (.application fault span)
  /-- An argument that is refused is where it is. -/
  argument : ∀ fault d, P d → E (.application fault d.span)
  /-- A form that is refused is at the place. -/
  form : ∀ fault, E (.malformed fault span)
  /-- What stands in the place of a name is handed on. -/
  notSymbol : ∀ d, P d → E (.notSymbol d)

namespace PassedOn

variable {span : Span} {E : EvalError → Prop} {P : Datum → Prop} {d : Datum} {ds : List Datum}

/-! ### Primitives -/

section Primitives

variable (h : PassedOn span E P)

include h

theorem meets_numberArg (p : Primitive) (position : Nat) (hd : P d) :
    Meets E (fun _ => True) (p.numberArg position d) := by
  rw [Primitive.numberArg.eq_def]
  split
  · trivial
  · exact h.argument _ _ hd

theorem meets_listArg (p : Primitive) (hd : P d) :
    Meets E (fun es => ∀ e ∈ es, P e) (p.listArg d) := by
  rw [Primitive.listArg.eq_def]
  split
  · exact h.element _ _ hd
  · exact h.argument _ _ hd

theorem meets_foldNumbers (p : Primitive) (op : Float → Float → Float) (position : Nat)
    (acc : Float) (hds : ∀ d ∈ ds, P d) :
    Meets E (fun _ => True) (p.foldNumbers op position acc ds) := by
  induction ds generalizing position acc with
  | nil => trivial
  | cons d ds ih =>
    obtain ⟨hd, hds⟩ := List.forall_mem_cons.mp hds
    exact (h.meets_numberArg p position hd).bind fun x _ => ih (position + 1) (op acc x) hds

theorem meets_foldDivisors (position : Nat) (acc : Float) (hds : ∀ d ∈ ds, P d) :
    Meets E (fun _ => True) (Primitive.foldDivisors position acc ds) := by
  induction ds generalizing position acc with
  | nil => trivial
  | cons d ds ih =>
    obtain ⟨hd, hds⟩ := List.forall_mem_cons.mp hds
    refine (h.meets_numberArg .div position hd).bind fun x _ => ?_
    split
    · exact h.argument _ d hd
    · exact ih (position + 1) (acc / x) hds

theorem meets_subtract (hds : ∀ d ∈ ds, P d) :
    Meets E (fun _ => True) (Primitive.subtract span ds) := by
  rcases ds with - | ⟨d, - | ⟨e, ds⟩⟩
  · exact h.call _
  · exact (h.meets_numberArg .sub 1 (hds d List.mem_cons_self)).bind fun _ _ => trivial
  · obtain ⟨hd, hds⟩ := List.forall_mem_cons.mp hds
    exact (h.meets_numberArg .sub 1 hd).bind fun x _ => h.meets_foldNumbers .sub _ 2 x hds

theorem meets_divide (hds : ∀ d ∈ ds, P d) :
    Meets E (fun _ => True) (Primitive.divide span ds) := by
  rcases ds with - | ⟨d, - | ⟨e, ds⟩⟩
  · exact h.call _
  · exact h.meets_foldDivisors 1 1 hds
  · obtain ⟨hd, hds⟩ := List.forall_mem_cons.mp hds
    exact (h.meets_numberArg .div 1 hd).bind fun x _ => h.meets_foldDivisors 2 x hds

theorem meets_compareFrom (p : Primitive) (rel : Float → Float → Bool) (position : Nat) (x : Float)
    (hds : ∀ d ∈ ds, P d) : Meets E (fun _ => True) (p.compareFrom rel position x ds) := by
  induction ds generalizing position x with
  | nil => trivial
  | cons d ds ih =>
    obtain ⟨hd, hds⟩ := List.forall_mem_cons.mp hds
    refine (h.meets_numberArg p position hd).bind fun y _ => ?_
    exact (ih (position + 1) y hds).bind fun _ _ => trivial

theorem meets_compareAll (p : Primitive) (rel : Float → Float → Bool) (hds : ∀ d ∈ ds, P d) :
    Meets E (fun _ => True) (p.compareAll rel ds span) := by
  rcases ds with - | ⟨d, - | ⟨e, ds⟩⟩
  · exact h.call _
  · exact h.call _
  · obtain ⟨hd, hds⟩ := List.forall_mem_cons.mp hds
    exact (h.meets_numberArg p 1 hd).bind fun x _ => h.meets_compareFrom p rel 2 x hds

theorem meets_hasKind (p : Primitive) (kind : Datum.Kind) (args : List Datum) :
    Meets E P (p.hasKind kind args span) := by
  rcases args with - | ⟨d, - | ⟨e, args⟩⟩
  · exact h.call _
  · exact h.boolean _
  · exact h.call _

/-- **The result of a primitive has what its arguments have.** -/
theorem meets_apply (p : Primitive) {args : List Datum} (hargs : ∀ d ∈ args, P d) :
    Meets E P (p.apply args span) := by
  cases p with
  | add | mul => exact (h.meets_foldNumbers _ _ 1 _ hargs).map fun x _ => h.number x
  | sub => exact (h.meets_subtract hargs).map fun x _ => h.number x
  | div => exact (h.meets_divide hargs).map fun x _ => h.number x
  | less | lessEq | greater | greaterEq =>
    exact (h.meets_compareAll _ _ hargs).map fun b _ => h.boolean b
  | equal =>
    rw [Primitive.apply]
    split
    · exact h.call _
    · exact h.boolean _
  | car =>
    rcases args with - | ⟨d, - | ⟨e, args⟩⟩
    · exact h.call _
    · have hd := hargs d List.mem_cons_self
      refine (h.meets_listArg .car hd).bind fun es hes => ?_
      cases es with
      | nil => exact h.argument _ d hd
      | cons e es => exact hes e List.mem_cons_self
    · exact h.call _
  | cdr =>
    rcases args with - | ⟨d, - | ⟨e, args⟩⟩
    · exact h.call _
    · refine (h.meets_listArg .cdr (hargs d List.mem_cons_self)).bind fun es hes => ?_
      exact h.list es.tail fun e he => hes e (List.mem_of_mem_tail he)
    · exact h.call _
  | cons =>
    rcases args with - | ⟨d, - | ⟨e, - | ⟨e', args⟩⟩⟩
    · exact h.call _
    · exact h.call _
    · obtain ⟨hd, hrest⟩ := List.forall_mem_cons.mp hargs
      refine (h.meets_listArg .cons (hrest e List.mem_cons_self)).bind fun es hes => ?_
      exact h.list (d :: es) (List.forall_mem_cons.mpr ⟨hd, hes⟩)
    · exact h.call _
  | list => exact h.list args hargs
  | isNull =>
    rcases args with - | ⟨d, - | ⟨e, args⟩⟩
    · exact h.call _
    · cases d <;> exact h.boolean _
    · cases d <;> exact h.call _
  | isNumber | isBoolean | isSymbol | isString | isProcedure => exact h.meets_hasKind _ _ args

end Primitives

/-! ### Special forms -/

section Forms

variable (h : PassedOn span E P)

include h

theorem meets_symbolName (hd : P d) : Meets E (fun _ => True) (SpecialForm.symbolName d) := by
  rw [SpecialForm.symbolName.eq_def]
  split
  · trivial
  · exact h.notSymbol _ hd

theorem meets_symbolNames (hds : ∀ d ∈ ds, P d) :
    Meets E (fun _ => True) (SpecialForm.symbolNames ds) := by
  induction ds with
  | nil => trivial
  | cons d ds ih =>
    obtain ⟨hd, hds⟩ := List.forall_mem_cons.mp hds
    exact (h.meets_symbolName hd).bind fun _ _ => (ih hds).bind fun _ _ => trivial

theorem meets_bindingPairs :
    ∀ ds, (∀ d ∈ ds, P d) → Meets E (fun _ => True) (SpecialForm.bindingPairs ds)
  | [], _ => trivial
  | [_], _ => trivial
  | name :: value :: ds, hds => by
    obtain ⟨hname, hds⟩ := List.forall_mem_cons.mp hds
    obtain ⟨-, hds⟩ := List.forall_mem_cons.mp hds
    refine (h.meets_symbolName hname).bind fun _ _ => ?_
    exact (meets_bindingPairs ds hds).bind fun _ _ => trivial

/-- **Operands that are refused give an error that has what they have.** -/
theorem error_of_ofOperands {keyword : Keyword} (hds : ∀ d ∈ ds, P d) {e : EvalError}
    (he : SpecialForm.ofOperands keyword ds span = .error e) : E e := by
  suffices hmeets : Meets E (fun _ => True) (SpecialForm.ofOperands keyword ds span) by
    rwa [he] at hmeets
  cases keyword with
  | letStar =>
    rw [SpecialForm.ofOperands, SpecialForm.ofLetStar.eq_def]
    split
    · have hpairs := h.element _ _ (hds _ List.mem_cons_self)
      split
      · exact (h.meets_bindingPairs _ hpairs).bind fun _ _ => trivial
      · exact h.form _
    · exact h.form _
    · exact h.form _
  | define =>
    rw [SpecialForm.ofOperands, SpecialForm.ofDefine.eq_def]
    split
    · exact (h.meets_symbolName (hds _ List.mem_cons_self)).bind fun _ _ => trivial
    · exact h.form _
  | conditional =>
    rw [SpecialForm.ofOperands, SpecialForm.ofConditional.eq_def]
    split
    · trivial
    · trivial
    · exact h.form _
  | lambda =>
    rw [SpecialForm.ofOperands, SpecialForm.ofLambda.eq_def]
    split
    · exact h.form _
    · exact h.form _
    · have hparams := h.element _ _ (hds _ List.mem_cons_self)
      exact (h.meets_symbolNames hparams).bind fun _ _ => trivial
    · exact h.form _
  | quote =>
    rw [SpecialForm.ofOperands, SpecialForm.ofQuote.eq_def]
    split
    · trivial
    · exact h.form _

/-- **What comes of the operands of a keyword**: the form that they make, or an error that has
what they have. -/
theorem meets_ofOperands (keyword : Keyword) (hds : ∀ d ∈ ds, P d) :
    Meets E (SpecialForm.MadeOf keyword ds) (SpecialForm.ofOperands keyword ds span) := by
  rcases hform : SpecialForm.ofOperands keyword ds span with e | form
  · exact h.error_of_ofOperands hds hform
  · exact SpecialForm.madeOf_of_ofOperands hform

end Forms

end PassedOn

end SmallLisp
