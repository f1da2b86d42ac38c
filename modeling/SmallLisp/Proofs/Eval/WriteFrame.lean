import SmallLisp.Proofs.Eval.Forms
import SmallLisp.Proofs.Eval.Outcome
import SmallLisp.Proofs.Store.Growth

/-!
# What an evaluation writes

An evaluation writes the frame it runs in and the frames that it makes itself, and
no other: whatever closures it calls, and whether it succeeds or fails. In its own
frame it binds names of `define` forms that stand where they are evaluated in that
frame (`SmallLisp.Datum.definedNames`), and it never unbinds a name.

The induction is on the depth. One level of evaluation is made of actions that run
one after the other, so it keeps every preorder on stores that its parts keep
(`SmallLisp.Action.Keeps`); the only step that changes the preorder is
`SmallLisp.withFrame`, where the writes go to a new frame and the store around it is
extended (`SmallLisp.withFrame_keeps`).

* `SmallLisp.eval_confined` – an evaluation changes its own frame only;
* `SmallLisp.applyWith_keeps_extends` – an application changes no frame;
* `SmallLisp.evaluation_writes_own_definitions` – **the write frame**, in full.
-/

namespace SmallLisp

/-! ### Actions that keep a relation of stores -/

namespace Action

variable {ε δ α β : Type} {P : Store → Store → Prop}

/-- **The store that an action leaves is related to the one it was given**, whether
the action succeeds or fails. -/
def Keeps (P : Store → Store → Prop) (x : Action ε α) : Prop :=
  ∀ ⦃s r t⦄, x s = some (r, t) → P s t

theorem Keeps.mono {Q : Store → Store → Prop} {x : Action ε α} (h : x.Keeps P)
    (hsub : ∀ s t, P s t → Q s t) : x.Keeps Q :=
  fun s _ t hx => hsub s t (h hx)

theorem keeps_change {f : Store → Store} (h : ∀ s, P s (f s)) :
    (change f : Action ε Unit).Keeps P := by
  intro s r t hx
  obtain ⟨-, rfl⟩ : Except.ok () = r ∧ f s = t := by simpa [change] using hx
  exact h s

theorem keeps_step {f : Store → α × Store} (h : ∀ s, P s (f s).2) :
    (step f : Action ε α).Keeps P := by
  intro s r t hx
  obtain ⟨-, rfl⟩ : Except.ok (f s).1 = r ∧ (f s).2 = t := by simpa [step] using hx
  exact h s

section Preorder

variable [IsPreorder Store P]

/-- An action that leaves the store as it is keeps every preorder. -/
theorem keeps_inspect (f : Store → Except ε α) : (inspect f).Keeps P := by
  intro s r t hx
  obtain ⟨-, rfl⟩ : f s = r ∧ s = t := by simpa [inspect] using hx
  exact Std.Refl.refl s

theorem keeps_ofExcept (r : Except ε α) : (ofExcept r).Keeps P := keeps_inspect fun _ => r

theorem keeps_pure (a : α) : (Pure.pure a : Action ε α).Keeps P := keeps_ofExcept (.ok a)

theorem keeps_fail (e : ε) : (fail e : Action ε α).Keeps P := keeps_ofExcept (.error e)

/-- One action after the other keeps what both keep. -/
theorem Keeps.bind {x : Action ε α} {f : α → Action ε β} (hx : x.Keeps P)
    (hf : ∀ a, (f a).Keeps P) : (x >>= f).Keeps P := by
  intro s r t h
  rcases bind_eq_some_iff.mp h with ⟨e, he, -⟩ | ⟨a, u, ha, hu⟩
  · exact hx he
  · exact IsTrans.trans s u t (hx ha) (hf a hu)

end Preorder

theorem Keeps.mapError {x : Action ε α} (hx : x.Keeps P) (g : ε → δ) :
    (x.mapError g).Keeps P := by
  intro s r t h
  rw [Action.mapError] at h
  rcases hxs : x s with _ | ⟨_ | a, u⟩
  · simp [hxs] at h
  · obtain ⟨-, rfl⟩ : _ ∧ u = t := by simpa [hxs] using h
    exact hx hxs
  · obtain ⟨-, rfl⟩ : _ ∧ u = t := by simpa [hxs] using h
    exact hx hxs

end Action

/-! ### New frames -/

theorem FramePolicy.finish_of_escapes (policy : FramePolicy) (f : FrameId)
    {r : Except EvalError Datum} (hr : escapes r = true) (s : Store) :
    policy.finish f r s = s := by
  cases policy with
  | keepAll => rfl
  | clearFinished => rw [FramePolicy.finish, if_pos hr]

@[simp]
theorem FramePolicy.size_finish (policy : FramePolicy) (f : FrameId) (r : Except EvalError Datum)
    (s : Store) : (policy.finish f r s).frames.size = s.frames.size := by
  cases policy with
  | keepAll => rfl
  | clearFinished =>
    rw [FramePolicy.finish]
    split
    · rfl
    · exact Store.size_clear s f

@[simp]
theorem FramePolicy.nextClosure_finish (policy : FramePolicy) (f : FrameId)
    (r : Except EvalError Datum) (s : Store) :
    (policy.finish f r s).nextClosure = s.nextClosure := by
  cases policy with
  | keepAll => rfl
  | clearFinished =>
    rw [FramePolicy.finish]
    split <;> rfl

/-- Finishing a frame that is new since `s` does not show in the frames of `s`. -/
theorem FramePolicy.extends_finish (policy : FramePolicy) {s t : Store} (h : s.Extends t)
    {f : FrameId} (hf : s.frames.size ≤ f) (r : Except EvalError Datum) :
    s.Extends (policy.finish f r t) := by
  cases policy with
  | keepAll => exact h
  | clearFinished =>
    rw [FramePolicy.finish]
    split
    · exact h
    · exact h.clear hf

/-- A body that writes its own frame only, run in a new frame, extends the store. -/
theorem extends_of_body {body : FrameId → Action EvalError Datum}
    (hbody : ∀ f, (body f).Keeps (Store.Changes f Set.univ)) {outer : FrameId}
    {entries : List (String × Datum)} {s t : Store} {r : Except EvalError Datum}
    (h : body s.frames.size
      ((s.addFrame (some outer) .empty).2.setAll s.frames.size entries) = some (r, t)) :
    s.Extends t := by
  -- both the entries and the body go to the frame that was added
  have hwrites : Store.Changes s.frames.size Set.univ (s.addFrame (some outer) .empty).2 t :=
    (Store.changes_setAll _ _ entries).trans (hbody _ h)
  exact hwrites.extends_of_addFrame

/-- **Nor does finishing the frame show in the frames that were there.** -/
theorem withFrame_keeps (policy : FramePolicy) (outer : FrameId)
    (entries : List (String × Datum)) {body : FrameId → Action EvalError Datum}
    (hbody : ∀ f, (body f).Keeps (Store.Changes f Set.univ)) :
    (withFrame policy outer entries body).Keeps Store.Extends := by
  intro s r t h
  obtain ⟨u, hu, rfl⟩ := withFrame_eq_some_iff.mp h
  exact policy.extends_finish (extends_of_body hbody hu) le_rfl r

/-! ### One level of evaluation -/

section Level

variable {policy : FramePolicy} {ev : Evaluator} {f : FrameId}

section Preorder

variable {P : Store → Store → Prop} [IsPreorder Store P]

theorem evalElements_keeps {ds : List Datum} (hev : ∀ d ∈ ds, (ev d f).Keeps P) :
    (evalElements ev f ds).Keeps P := by
  induction ds with
  | nil => exact Action.keeps_pure []
  | cons d ds ih =>
    refine Action.Keeps.bind (hev d List.mem_cons_self) fun v => ?_
    refine Action.Keeps.bind (ih fun e he => hev e (List.mem_cons_of_mem d he)) fun vs => ?_
    exact Action.keeps_pure (v :: vs)

theorem evalBody_keeps (hev : ∀ d, (ev d f).Keeps P) (result : Datum) (ds : List Datum) :
    (evalBody ev f result ds).Keeps P := by
  induction ds generalizing result with
  | nil => exact Action.keeps_pure result
  | cons d ds ih => exact Action.Keeps.bind (hev d) ih

end Preorder

theorem evalBindings_keeps (hev : ∀ d, (ev d f).Keeps (Store.Changes f Set.univ))
    (bs : List (String × Datum)) : (evalBindings ev f bs).Keeps (Store.Changes f Set.univ) := by
  induction bs with
  | nil => exact Action.keeps_pure ()
  | cons b bs ih =>
    obtain ⟨name, d⟩ := b
    refine Action.Keeps.bind (hev d) fun v => ?_
    refine Action.Keeps.bind (Action.keeps_change fun s => ?_) fun _ => ih
    exact (Store.changes_set s f name v).mono (Set.subset_univ _)

/-- **An application writes no frame that was there**: a primitive touches no store,
and a closure runs in a frame of its own. -/
theorem applyWith_keeps_extends
    (hev : ∀ d g, (ev d g).Keeps (Store.Changes g Set.univ)) (p : Procedure)
    (args : List Datum) (span : Span) : (applyWith policy ev p args span).Keeps Store.Extends := by
  cases p with
  | primitive p => exact Action.keeps_ofExcept (p.apply args span)
  | closure c =>
    change (applyClosure policy ev c args span).Keeps Store.Extends
    rw [applyClosure]
    split
    · exact withFrame_keeps policy c.frame _ fun g => evalBody_keeps (hev · g) _ _
    · exact Action.keeps_fail _

/-- **A `let*` writes no frame that was there.** -/
theorem evalForm_letStar_keeps_extends
    (hev : ∀ d g, (ev d g).Keeps (Store.Changes g Set.univ)) (span : Span)
    (bindings : List (String × Datum)) (body : Datum) :
    (evalForm policy ev f span (.letStar bindings body)).Keeps Store.Extends := by
  rw [evalForm]
  exact withFrame_keeps policy f [] fun g =>
    Action.Keeps.bind (evalBindings_keeps (hev · g) bindings) fun _ => hev body g

end Level

/-! ### The names that are defined -/

mutual

/-- **The names of the `define` forms of an expression that are evaluated in the
frame of the expression itself**: those of the expression, of what a `define` binds
its name to, of the operands of `if` and of the elements of an application. What
stands inside `quote`, `lambda` or `let*` is not evaluated, or elsewhere. -/
def Datum.definedNames : Datum → List String
  | .list (d :: ds) _ =>
    match d.keyword? with
    | some .define =>
      match ds with
      | [.symbol name _, value] => name :: value.definedNames
      | _ => []
    | some .conditional => Datum.definedNamesOfAll ds
    | some _ => []
    | none => d.definedNames ++ Datum.definedNamesOfAll ds
  | _ => []

/-- The names that the expressions of a list define. -/
def Datum.definedNamesOfAll : List Datum → List String
  | [] => []
  | d :: ds => d.definedNames ++ Datum.definedNamesOfAll ds

end

theorem Datum.definedNamesOfAll_eq (ds : List Datum) :
    Datum.definedNamesOfAll ds = ds.flatMap Datum.definedNames := by
  induction ds with
  | nil => rfl
  | cons d ds ih => rw [Datum.definedNamesOfAll, ih, List.flatMap_cons]

/-- The names that a special form defines in the frame that it is evaluated in. -/
def SpecialForm.definedNames : SpecialForm → List String
  | .define name value => name :: value.definedNames
  | .conditional condition consequent alternate =>
    condition.definedNames ++ (consequent.definedNames ++
      (alternate.map Datum.definedNames).getD [])
  | _ => []

/-- A special form defines no name but those of the list that it was made of. -/
theorem SpecialForm.definedNames_subset {d : Datum} {ds : List Datum} {span : Span}
    {keyword : Keyword} {form : SpecialForm} (hk : d.keyword? = some keyword)
    (h : SpecialForm.MadeOf keyword ds form) :
    form.definedNames ⊆ (Datum.list (d :: ds) span).definedNames := by
  cases h with
  | define => simp [definedNames, Datum.definedNames, hk]
  | oneArmed =>
    rw [Datum.definedNames.eq_def]
    simp [definedNames, hk, Datum.definedNamesOfAll]
  | twoArmed =>
    rw [Datum.definedNames.eq_def]
    simp [definedNames, hk, Datum.definedNamesOfAll]
  | letStar | lambda | quote => exact List.nil_subset _

/-- The elements of an application define what the application does. -/
theorem Datum.definedNames_subset_of_mem {d e : Datum} {ds : List Datum} {span : Span}
    (hk : d.keyword? = none) (he : e ∈ d :: ds) :
    e.definedNames ⊆ (Datum.list (d :: ds) span).definedNames := by
  rw [Datum.definedNames.eq_def (Datum.list (d :: ds) span)]
  simp only [hk, Datum.definedNamesOfAll_eq]
  rcases List.mem_cons.mp he with rfl | he
  · exact List.subset_append_left _ _
  · exact fun x hx => List.mem_append_right _ (List.mem_flatMap.mpr ⟨e, he, hx⟩)

/-! ### Evaluation -/

section Step

variable {policy : FramePolicy} {ev : Evaluator} {f : FrameId}

/-- The induction hypothesis on the depth: the level below changes the frame it runs
in, and there only the names that its expression defines. -/
def Evaluator.Confined (ev : Evaluator) : Prop :=
  ∀ d f, (ev d f).Keeps (Store.Changes f {x | x ∈ d.definedNames})

theorem Evaluator.Confined.keeps (h : ev.Confined) (d : Datum) (f : FrameId) {names : Set String}
    (hsub : ∀ x ∈ d.definedNames, x ∈ names) : (ev d f).Keeps (Store.Changes f names) :=
  (h d f).mono fun _ _ hst => hst.mono hsub

theorem Evaluator.Confined.keeps_univ (h : ev.Confined) (d : Datum) (f : FrameId) :
    (ev d f).Keeps (Store.Changes f Set.univ) :=
  h.keeps d f fun _ _ => trivial

theorem evalForm_keeps (hev : ev.Confined) (span : Span) (form : SpecialForm) :
    (evalForm policy ev f span form).Keeps (Store.Changes f {x | x ∈ form.definedNames}) := by
  cases form with
  | letStar bindings body =>
    exact (evalForm_letStar_keeps_extends hev.keeps_univ span bindings body).mono
      fun _ _ h => h.changes f _
  | define name value =>
    rw [evalForm]
    -- first what the value defines, then the name itself
    refine Action.Keeps.bind (hev.keeps value f fun x hx => List.mem_cons_of_mem _ hx) fun v => ?_
    refine Action.Keeps.bind (Action.keeps_change fun s => ?_) fun _ => Action.keeps_pure v
    refine (Store.changes_set s f name v).mono fun x hx => ?_
    obtain rfl : x = name := hx
    exact List.mem_cons_self
  | conditional condition consequent alternate =>
    rw [evalForm.eq_def]
    refine Action.Keeps.bind (hev.keeps condition f fun x hx => List.mem_append_left _ hx)
      fun v => ?_
    split
    · exact hev.keeps consequent f fun x hx =>
        List.mem_append_right _ (List.mem_append_left _ hx)
    · cases alternate with
      | none => exact Action.keeps_pure _
      | some d =>
        exact hev.keeps d f fun x hx => List.mem_append_right _ (List.mem_append_right _ hx)
  | lambda params body =>
    rw [evalForm]
    refine Action.Keeps.bind (Action.keeps_step fun s => ?_) fun id => Action.keeps_pure _
    exact s.extends_addClosure.changes f _
  | quote datum => exact Action.keeps_pure datum

theorem evalApplication_keeps (hev : ev.Confined) {ds : List Datum} {names : Set String}
    (hsub : ∀ d ∈ ds, ∀ x ∈ d.definedNames, x ∈ names) (span : Span) :
    (evalApplication policy ev f ds span).Keeps (Store.Changes f names) := by
  rw [evalApplication]
  refine Action.Keeps.bind (evalElements_keeps fun d hd => hev.keeps d f (hsub d hd)) fun vs => ?_
  split
  · exact (applyWith_keeps_extends hev.keeps_univ _ _ _).mono fun _ _ h => h.changes f names
  · exact Action.keeps_pure _

/-- **One level of evaluation is confined when the level below is.** -/
theorem evalStep_confined (hev : ev.Confined) : (evalStep policy ev).Confined := by
  intro d f
  rcases d with ⟨_ | _ | _ | name, span⟩ | ⟨_ | ⟨d, ds⟩, span⟩ | _ | _
  case atom.symbol => exact Action.keeps_inspect _
  case list.cons =>
    rw [evalStep]
    split
    · next keyword hk =>
      -- a form that is refused writes nothing, and one that is made defines names of the list
      rcases h : SpecialForm.ofOperands keyword ds span with e | form
      · exact Action.keeps_fail e
      · refine (evalForm_keeps hev span form).mono fun _ _ hst => hst.mono fun x hx => ?_
        exact SpecialForm.definedNames_subset hk (SpecialForm.madeOf_of_ofOperands h) hx
    · next hk =>
      exact evalApplication_keeps hev
        (fun e he x hx => Datum.definedNames_subset_of_mem hk he hx) span
  -- Everything else evaluates to itself.
  all_goals exact Action.keeps_pure _

end Step

/-- **An evaluation changes the frame it runs in, and there only the names that its
expression defines.** -/
theorem eval_confined (policy : FramePolicy) (depth : Nat) : (eval policy depth).Confined := by
  induction depth with
  | zero =>
    intro d f s r t h
    simp at h
  | succ depth ih => exact evalStep_confined ih

theorem apply_keeps_extends (policy : FramePolicy) (depth : Nat) (p : Procedure)
    (args : List Datum) (span : Span) : (apply policy depth p args span).Keeps Store.Extends :=
  applyWith_keeps_extends (eval_confined policy depth).keeps_univ p args span

/-- A list that starts with `let*` writes no frame that was there, even if its
operands are refused. -/
theorem eval_letStar_keeps_extends (policy : FramePolicy) (depth : Nat) (a : Span)
    (operands : List Datum) (span : Span) (f : FrameId) :
    (eval policy depth (.list (.symbol "let*" a :: operands) span) f).Keeps Store.Extends := by
  cases depth with
  | zero =>
    intro s r t h
    simp at h
  | succ depth =>
    have hk : (Datum.symbol "let*" a).keyword? = some .letStar := Keyword.ofName?_name .letStar
    rw [eval_succ, evalStep, hk]
    change (Action.ofExcept (SpecialForm.ofOperands .letStar operands span) >>=
      evalForm policy (eval policy depth) f span).Keeps Store.Extends
    rcases h : SpecialForm.ofOperands .letStar operands span with e | form
    · exact Action.keeps_fail (P := Store.Extends) e
    · cases SpecialForm.madeOf_of_ofOperands h
      exact evalForm_letStar_keeps_extends (eval_confined policy depth).keeps_univ span _ _

/-- **The write frame of evaluation.** However an evaluation ends, every other frame
that was there has the link and the bindings it had; the frame of the evaluation has
its link and all its names, and every name outside `SmallLisp.Datum.definedNames` has
the value it had, or none as before. A `let*` and an application change no frame that
was there at all. -/
theorem evaluation_writes_own_definitions (policy : FramePolicy) :
    (∀ s d f r t, Evaluates policy s d f r t →
      (∀ g < s.frames.size, g ≠ f → t.frames[g]? = s.frames[g]?) ∧
      (f < s.frames.size →
        t.outer? f = s.outer? f ∧
        (∀ x, (s.bindings f).binds x → (t.bindings f).binds x) ∧
        ∀ x ∉ d.definedNames, (t.bindings f).get? x = (s.bindings f).get? x)) ∧
    (∀ s a operands span f r t,
      Evaluates policy s (.list (.symbol "let*" a :: operands) span) f r t →
      ∀ g < s.frames.size, t.frames[g]? = s.frames[g]?) ∧
    (∀ s p args span r t, Applies policy s p args span r t →
      ∀ g < s.frames.size, t.frames[g]? = s.frames[g]?) := by
  refine ⟨?_, ?_, ?_⟩
  · rintro s d f r t ⟨depth, h⟩
    have hchanges := eval_confined policy depth d f h
    refine ⟨hchanges.frame_eq, fun hf => ?_⟩
    exact ⟨hchanges.outer_eq hf, hchanges.binds_of_binds hf, hchanges.get?_eq hf⟩
  · rintro s a operands span f r t ⟨depth, h⟩
    exact (eval_letStar_keeps_extends policy depth a operands span f h).frame_eq
  · rintro s p args span r t ⟨depth, h⟩
    exact (apply_keeps_extends policy depth p args span h).frame_eq

/-- `(define y (let* (x ()) (quote)))` fails in the body of its `let*`, since `quote` has
no operand there. -/
theorem failed_define_writes_nothing :
    let n := Span.none
    let s : Store := ⟨#[⟨none, ⟨[("x", .boolean true n)]⟩⟩, ⟨some 0, ⟨[("w", .list [] n)]⟩⟩], 0⟩
    let d : Datum := .list [.symbol "define" n, .symbol "y" n,
      .list [.symbol "let*" n, .list [.symbol "x" n, .list [] n] n,
        .list [.symbol "quote" n] n] n] n
    ∃ r t, Evaluates .clearFinished s d 1 r t ∧ t.frames[0]? = s.frames[0]? ∧
      (t.bindings 1).get? "x" = none := by
  intro n s d
  have h : Evaluates .clearFinished s d 1 (.error (.malformed .quoteOperands n))
      ⟨s.frames.push ⟨some 1, .empty⟩, 0⟩ := ⟨5, by unfold s d n; cbv⟩
  have hwrite := (evaluation_writes_own_definitions .clearFinished).1 s d 1 _ _ h
  exact ⟨_, _, h, hwrite.1 0 (by decide) (by decide), hwrite.2 (by decide) |>.2.2 "x" (by decide)⟩

end SmallLisp
