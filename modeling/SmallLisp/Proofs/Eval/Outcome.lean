import SmallLisp.Eval.Basic

/-!
# Evaluations that end

An evaluation of bounded depth either ends or reaches its bound. A greater bound
changes nothing for one that ends (`SmallLisp.eval_mono`), so what an evaluation ends
with does not depend on the bound, and the bound can be left out:

* `SmallLisp.Evaluates` – **an expression evaluates to a result**, and leaves a store;
* `SmallLisp.Applies` – a procedure applied to values gives a result, and leaves a
  store.

A result is a value or an error. There is at most one, with one store
(`SmallLisp.Evaluates.unique`, `SmallLisp.Applies.unique`), and there is none if the
evaluation does not end.
-/

namespace SmallLisp

namespace Action

variable {ε α β : Type}

/-- **Where the first action ends, the second ends in the same way.** -/
def Below (x y : Action ε α) : Prop := ∀ ⦃s o⦄, x s = some o → y s = some o

theorem Below.refl (x : Action ε α) : x.Below x := fun _ _ h => h

theorem Below.trans {x y z : Action ε α} (hxy : x.Below y) (hyz : y.Below z) : x.Below z :=
  fun _ _ h => hyz (hxy h)

theorem Below.bind {x y : Action ε α} {f g : α → Action ε β} (hxy : x.Below y)
    (hfg : ∀ a, (f a).Below (g a)) : (x >>= f).Below (y >>= g) := by
  rintro s ⟨r, t⟩ h
  rcases bind_eq_some_iff.mp h with ⟨e, he, hr⟩ | ⟨a, u, ha, hu⟩
  · exact bind_eq_some_iff.mpr (Or.inl ⟨e, hxy he, hr⟩)
  · exact bind_eq_some_iff.mpr (Or.inr ⟨a, u, hxy ha, hfg a hu⟩)

/-- Actions one of which is below the other do not end in two ways. -/
theorem Below.unique {x y : Action ε α} (hxy : x.Below y) {s : Store} {o p : Except ε α × Store}
    (hx : x s = some o) (hy : y s = some p) : o = p :=
  Option.some.inj ((hxy hx).symm.trans hy)

/-- **If greater bounds change nothing for actions that end, they end in one way.** -/
theorem unique_of_below {x : Nat → Action ε α} (hmono : ∀ {m n}, m ≤ n → (x m).Below (x n))
    {s t t' : Store} {r r' : Except ε α} (h : ∃ n, x n s = some (r, t))
    (h' : ∃ n, x n s = some (r', t')) : r = r' ∧ t = t' := by
  obtain ⟨m, hm⟩ := h
  obtain ⟨n, hn⟩ := h'
  -- both outcomes are the one at the greater of the two bounds
  rcases Nat.le_total m n with hle | hle
  · exact Prod.mk.inj ((hmono hle).unique hm hn)
  · exact Prod.mk.inj ((hmono hle).unique hn hm).symm

end Action

/-! ### One level of evaluation -/

/-- What `SmallLisp.withFrame` does, step by step: the frame is made, its entries
are bound, the body runs in it, and it is finished. -/
theorem withFrame_apply (policy : FramePolicy) (outer : FrameId) (entries : List (String × Datum))
    (body : FrameId → Action EvalError Datum) (s : Store) :
    withFrame policy outer entries body s =
      (body s.frames.size
        ((s.addFrame (some outer) .empty).2.setAll s.frames.size entries)).map
          fun o => (o.1, policy.finish s.frames.size o.1 o.2) := by
  simp only [withFrame, Store.addFrame]
  generalize body s.frames.size _ = o
  rcases o with _ | ⟨r, u⟩ <;> rfl

theorem withFrame_eq_some_iff {policy : FramePolicy} {outer : FrameId}
    {entries : List (String × Datum)} {body : FrameId → Action EvalError Datum} {s t : Store}
    {r : Except EvalError Datum} :
    withFrame policy outer entries body s = some (r, t) ↔
      ∃ u, body s.frames.size ((s.addFrame (some outer) .empty).2.setAll s.frames.size entries) =
          some (r, u) ∧ t = policy.finish s.frames.size r u := by
  rw [withFrame_apply, Option.map_eq_some_iff]
  constructor
  · rintro ⟨⟨r', u⟩, hu, h⟩
    obtain ⟨rfl, rfl⟩ := Prod.mk.inj h
    exact ⟨u, hu, rfl⟩
  · rintro ⟨u, hu, rfl⟩
    exact ⟨(r, u), hu, rfl⟩

section Level

variable {policy : FramePolicy} {ev ev' : Evaluator}

theorem withFrame_below (outer : FrameId) (entries : List (String × Datum))
    {body body' : FrameId → Action EvalError Datum} (h : ∀ f, (body f).Below (body' f)) :
    (withFrame policy outer entries body).Below (withFrame policy outer entries body') := by
  rintro s ⟨r, t⟩ hx
  obtain ⟨u, hu, rfl⟩ := withFrame_eq_some_iff.mp hx
  exact withFrame_eq_some_iff.mpr ⟨u, h _ hu, rfl⟩

/-- The level below with a greater depth. -/
def Evaluator.Below (ev ev' : Evaluator) : Prop := ∀ d f, (ev d f).Below (ev' d f)

variable (h : ev.Below ev') (f : FrameId)

include h

theorem evalElements_below (ds : List Datum) :
    (evalElements ev f ds).Below (evalElements ev' f ds) := by
  induction ds with
  | nil => exact Action.Below.refl _
  | cons d ds ih =>
    exact Action.Below.bind (h d f) fun v => Action.Below.bind ih fun vs => Action.Below.refl _

theorem evalBody_below (result : Datum) (ds : List Datum) :
    (evalBody ev f result ds).Below (evalBody ev' f result ds) := by
  induction ds generalizing result with
  | nil => exact Action.Below.refl _
  | cons d ds ih => exact Action.Below.bind (h d f) ih

theorem evalBindings_below (bs : List (String × Datum)) :
    (evalBindings ev f bs).Below (evalBindings ev' f bs) := by
  induction bs with
  | nil => exact Action.Below.refl _
  | cons b bs ih =>
    exact Action.Below.bind (h b.2 f) fun v => Action.Below.bind (Action.Below.refl _) fun _ => ih

theorem applyWith_below (p : Procedure) (args : List Datum) (span : Span) :
    (applyWith policy ev p args span).Below (applyWith policy ev' p args span) := by
  cases p with
  | primitive p => exact Action.Below.refl _
  | closure c =>
    change (applyClosure policy ev c args span).Below (applyClosure policy ev' c args span)
    rw [applyClosure, applyClosure]
    split
    · exact withFrame_below c.frame _ fun g => evalBody_below h g _ _
    · exact Action.Below.refl _

theorem evalForm_below (span : Span) (form : SpecialForm) :
    (evalForm policy ev f span form).Below (evalForm policy ev' f span form) := by
  cases form with
  | letStar bindings body =>
    rw [evalForm, evalForm]
    exact withFrame_below f [] fun g =>
      Action.Below.bind (evalBindings_below h g bindings) fun _ => h body g
  | define name value =>
    exact Action.Below.bind (h value f) fun v => Action.Below.refl _
  | conditional condition consequent alternate =>
    rw [evalForm.eq_def, evalForm.eq_def]
    refine Action.Below.bind (h condition f) fun v => ?_
    split
    · exact h consequent f
    · cases alternate with
      | none => exact Action.Below.refl _
      | some d => exact h d f
  | lambda params body => exact Action.Below.refl _
  | quote datum => exact Action.Below.refl _

theorem evalApplication_below (ds : List Datum) (span : Span) :
    (evalApplication policy ev f ds span).Below (evalApplication policy ev' f ds span) := by
  rw [evalApplication, evalApplication]
  refine Action.Below.bind (evalElements_below h f ds) fun vs => ?_
  split
  · exact applyWith_below h _ _ _
  · exact Action.Below.refl _

theorem evalStep_below : (evalStep policy ev).Below (evalStep policy ev') := by
  intro d f
  rcases d with ⟨_ | _ | _ | name, span⟩ | ⟨_ | ⟨d, ds⟩, span⟩ | _ | _
  case list.cons =>
    rw [evalStep, evalStep]
    split
    · exact Action.Below.bind (Action.Below.refl _) fun form => evalForm_below h f span form
    · exact evalApplication_below h f _ span
  -- The other expressions do not use the level below.
  all_goals exact Action.Below.refl _

end Level

/-! ### The depth -/

theorem eval_below_succ (policy : FramePolicy) (depth : Nat) :
    (eval policy depth).Below (eval policy (depth + 1)) := by
  induction depth with
  | zero =>
    -- nothing ends at depth zero
    intro d f s o h
    simp at h
  | succ depth ih => exact evalStep_below ih

/-- **A greater depth changes nothing for an evaluation that ends.** -/
theorem eval_mono (policy : FramePolicy) {m n : Nat} (h : m ≤ n) :
    (eval policy m).Below (eval policy n) := by
  induction h with
  | refl => exact fun d f => Action.Below.refl _
  | step _ ih => exact fun d f => (ih d f).trans (eval_below_succ policy _ d f)

theorem apply_mono (policy : FramePolicy) {m n : Nat} (h : m ≤ n) (p : Procedure)
    (args : List Datum) (span : Span) :
    (apply policy m p args span).Below (apply policy n p args span) :=
  applyWith_below (eval_mono policy h) p args span

/-! ### Outcomes -/

/-- **An expression evaluates to a result** – a value or an error – in a frame of a
store, and leaves the store `t`. -/
def Evaluates (policy : FramePolicy) (s : Store) (d : Datum) (f : FrameId)
    (r : Except EvalError Datum) (t : Store) : Prop :=
  ∃ depth, eval policy depth d f s = some (r, t)

/-- **A procedure applied to values gives a result**, in a call with the given span,
and leaves the store `t`. -/
def Applies (policy : FramePolicy) (s : Store) (p : Procedure) (args : List Datum) (span : Span)
    (r : Except EvalError Datum) (t : Store) : Prop :=
  ∃ depth, apply policy depth p args span s = some (r, t)

section Unique

variable {policy : FramePolicy} {s t t' : Store} {r r' : Except EvalError Datum}

/-- There is at most one outcome. -/
theorem Evaluates.unique {d : Datum} {f : FrameId} (h : Evaluates policy s d f r t)
    (h' : Evaluates policy s d f r' t') : r = r' ∧ t = t' :=
  Action.unique_of_below (fun hle => eval_mono policy hle d f) h h'

theorem Applies.unique {p : Procedure} {args : List Datum} {span : Span}
    (h : Applies policy s p args span r t) (h' : Applies policy s p args span r' t') :
    r = r' ∧ t = t' :=
  Action.unique_of_below (fun hle => apply_mono policy hle p args span) h h'

end Unique

end SmallLisp
