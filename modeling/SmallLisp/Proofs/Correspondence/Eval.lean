import SmallLisp.Proofs.Correspondence.Basic
import SmallLisp.Proofs.Likeness.Form
import SmallLisp.Proofs.Likeness.Primitive

/-!
# Evaluation keeps a correspondence

Whatever correspondence stores fit by, like programs evaluated in frames that stand
for each other come to like ends (`SmallLisp.Correspondence.eval_alike`), and so do
like procedures applied to like values (`SmallLisp.Correspondence.apply_alike`). The
induction is on the depth, which is the same on both sides: so an evaluation reaches
its bound on the left exactly when it does on the right.
-/

namespace SmallLisp

namespace Correspondence

variable {C : Correspondence} {ev ev' : Evaluator} {w : Pairing} {f g : FrameId}

/-- The induction hypothesis on the depth: the levels below write no frame but their
own, and like programs come to like ends there. -/
structure LevelsAlike (C : Correspondence) (ev ev' : Evaluator) : Prop where
  left_confined : ev.Confined
  right_confined : ev'.Confined
  alike {w : Pairing} {d e : Datum} {f g : FrameId} : C.Code d e → w.frames f g →
    C.Alike w C.Value (ev d f) (ev' e g)

variable (h : C.LevelsAlike ev ev')

include h

/-! ### Sequences of expressions -/

theorem evalElements_alike {ds es : List Datum} (hds : List.Forall₂ C.Code ds es)
    (hfg : w.frames f g) :
    C.Alike w (fun w' => List.Forall₂ (C.Value w')) (evalElements ev f ds)
      (evalElements ev' g es) := by
  induction hds generalizing w with
  | nil => exact alike_pure .nil
  | cons hd _ ih =>
    refine (h.alike hd hfg).bind fun w₁ hw₁ v v' hv => ?_
    refine (ih (Pairing.frames_of_le hw₁ hfg)).bind fun w₂ hw₂ vs vs' hvs => ?_
    exact alike_pure (.cons (hv.mono le_rfl hw₂) hvs)

theorem evalBody_alike {result result' : Datum} (hresult : C.Value w result result')
    {ds es : List Datum} (hds : List.Forall₂ C.Code ds es) (hfg : w.frames f g) :
    C.Alike w C.Value (evalBody ev f result ds) (evalBody ev' g result' es) := by
  induction hds generalizing w result result' with
  | nil => exact alike_pure hresult
  | cons hd _ ih =>
    refine (h.alike hd hfg).bind fun w₁ hw₁ v v' hv => ?_
    exact ih hv (Pairing.frames_of_le hw₁ hfg)

theorem evalBindings_alike {bs cs : List (String × Datum)}
    (hbs : List.Forall₂ (C.terms.BindingLike C.base) bs cs) (hfg : w.frames f g) :
    C.Alike w Nothing (evalBindings ev f bs) (evalBindings ev' g cs) := by
  induction hbs generalizing w with
  | nil => exact alike_pure trivial
  | @cons b c bs cs hb _ ih =>
    obtain ⟨x, d⟩ := b
    obtain ⟨y, e⟩ := c
    obtain ⟨rfl, hx, hd⟩ := hb
    refine (h.alike hd hfg).bind fun w₁ hw₁ v v' hv => ?_
    have hfg₁ := Pairing.frames_of_le hw₁ hfg
    refine (alike_set hfg₁ hx hv).bind fun w₂ hw₂ _ _ _ => ?_
    exact ih (Pairing.frames_of_le hw₂ hfg₁)

/-! ### Procedures -/

theorem applyClosure_alike {c c' : Closure} (hframe : w.frames c.frame c'.frame)
    (hparams : c'.params = c.params) (hnames : ∀ x ∈ c.params, C.terms.name x)
    (hbody : List.Forall₂ C.Code c.body c'.body) {args args' : List Datum}
    (hargs : List.Forall₂ (C.Value w) args args') {s t : Span} (hspan : C.terms.span s t) :
    C.Alike w C.Value (applyClosure C.left ev c args s) (applyClosure C.right ev' c' args' t) := by
  rw [applyClosure, applyClosure, hparams, hargs.length_eq]
  split
  · refine alike_withFrame hframe ?_ ?_ ?_ ?_
    · exact entryLike_zip hnames hargs
    · exact fun w' hw' f' g' hfg => evalBody_alike h (.atom hspan) hbody hfg
    · exact fun f' => evalBody_keeps (h.left_confined.keeps_univ · f') _ _
    · exact fun g' => evalBody_keeps (h.right_confined.keeps_univ · g') _ _
  · exact alike_fail (.application hspan)

theorem applyWith_alike {p p' : Procedure} (hp : C.terms.ProcedureLike C.base w p p')
    {args args' : List Datum} (hargs : List.Forall₂ (C.Value w) args args') {s t : Span}
    (hspan : C.terms.span s t) :
    C.Alike w C.Value (applyWith C.left ev p args s) (applyWith C.right ev' p' args' t) := by
  cases hp with
  | primitive p =>
    refine alike_inspect fun s₀ t₀ hfits => ?_
    exact p.apply_outcome (C.closures_inj hfits) hargs hspan
  | closure _ hframe hparams hnames hbody =>
    exact applyClosure_alike h hframe hparams hnames hbody hargs hspan

/-! ### Special forms -/

theorem evalForm_alike {form form' : SpecialForm} (hform : C.terms.FormLike C.base form form')
    (hfg : w.frames f g) {s t : Span} (hspan : C.terms.span s t) :
    C.Alike w C.Value (evalForm C.left ev f s form) (evalForm C.right ev' g t form') := by
  cases hform with
  | letStar hbindings hbody =>
    rw [evalForm, evalForm]
    refine alike_withFrame hfg .nil ?_ ?_ ?_
    · intro w' hw' f' g' hfg'
      refine (evalBindings_alike h hbindings hfg').bind fun w₁ hw₁ _ _ _ => ?_
      exact h.alike hbody (Pairing.frames_of_le hw₁ hfg')
    · intro f'
      refine Action.Keeps.bind (evalBindings_keeps (h.left_confined.keeps_univ · f') _) fun _ => ?_
      exact h.left_confined.keeps_univ _ f'
    · intro g'
      refine Action.Keeps.bind (evalBindings_keeps (h.right_confined.keeps_univ · g') _) fun _ => ?_
      exact h.right_confined.keeps_univ _ g'
  | define hname hvalue =>
    refine (h.alike hvalue hfg).bind fun w₁ hw₁ v v' hv => ?_
    have hfg₁ := Pairing.frames_of_le hw₁ hfg
    refine (alike_set hfg₁ hname hv).bind fun w₂ hw₂ _ _ _ => ?_
    exact alike_pure (hv.mono le_rfl hw₂)
  | conditional hcondition hconsequent halternate =>
    rw [evalForm.eq_def, evalForm.eq_def]
    refine (h.alike hcondition hfg).bind fun w₁ hw₁ v v' hv => ?_
    have hfg₁ := Pairing.frames_of_le hw₁ hfg
    -- the same branch is taken on both sides
    rw [hv.isTruthy_eq]
    split
    · exact h.alike hconsequent hfg₁
    · cases halternate with
      | none => exact alike_pure (.atom hspan)
      | some halternate => exact h.alike halternate hfg₁
  | lambda hparams hbody =>
    refine alike_addClosure.bind fun w₁ hw₁ i j hij => ?_
    exact alike_pure (.closure hij (Pairing.frames_of_le hw₁ hfg) hparams hbody hspan)
  -- a quoted program becomes a value, under whatever pairing there is by now
  | quote hdatum => exact alike_of_base_le fun hbase => alike_pure (hdatum.value hbase)

theorem evalApplication_alike {ds es : List Datum} (hds : List.Forall₂ C.Code ds es)
    (hfg : w.frames f g) {s t : Span} (hspan : C.terms.span s t) :
    C.Alike w C.Value (evalApplication C.left ev f ds s) (evalApplication C.right ev' g es t) := by
  rw [evalApplication, evalApplication]
  refine (evalElements_alike h hds hfg).bind fun w₁ _ vs vs' hvs => ?_
  cases hvs with
  | nil => exact alike_pure (.list .nil hspan)
  | @cons v v' vs vs' hv hvs =>
    simp only [List.head?_cons, Option.bind_some, List.tail_cons]
    have hproc := hv.procedure?
    generalize v.procedure? = o at hproc
    generalize v'.procedure? = o' at hproc
    cases hproc with
    | none => exact alike_pure (.list (.cons hv hvs) hspan)
    | some hp => exact applyWith_alike h hp hvs hspan

/-! ### Evaluation -/

omit h in
theorem evalSymbol_alike {x : String} (hx : C.terms.name x) (hfg : w.frames f g) {s t : Span}
    (hspan : C.terms.span s t) : C.Alike w C.Value (evalSymbol f x s) (evalSymbol g x t) := by
  refine alike_inspect fun s₀ t₀ hfits => ?_
  have hfound := C.lookup hfits hfg hx hspan
  generalize s₀.lookup? x f = o at hfound
  generalize t₀.lookup? x g = o' at hfound
  cases hfound with
  | none => exact .error (.unbound hspan)
  | some hv => exact .ok hv

/-- **One level of evaluation keeps a correspondence when the levels below do.** -/
theorem evalStep_alike : C.LevelsAlike (evalStep C.left ev) (evalStep C.right ev') where
  left_confined := evalStep_confined h.left_confined
  right_confined := evalStep_confined h.right_confined
  alike {w d e f g} hde hfg := by
    -- what is no symbol and no list of something evaluates to itself
    have hself : C.Alike w C.Value (pure d) (pure e) :=
      alike_of_base_le fun hbase => alike_pure (hde.value hbase)
    cases hde with
    | @atom a s t hname hspan =>
      cases a with
      | symbol x => exact evalSymbol_alike (hname x rfl) hfg hspan
      | number | text | boolean => exact hself
    | primitive | closure => exact hself
    | list helements hspan =>
      cases helements with
      | nil => exact hself
      | cons hd hds =>
        rw [evalStep, evalStep, ← hd.keyword?_eq]
        split
        · next keyword _ =>
          have hforms := SpecialForm.ofOperands_outcome keyword hds hspan
          refine (alike_ofExcept (R := fun _ => C.terms.FormLike C.base) hforms).bind ?_
          exact fun w₁ hw₁ form form' hform =>
            evalForm_alike h hform (Pairing.frames_of_le hw₁ hfg) hspan
        · exact evalApplication_alike h (.cons hd hds) hfg hspan

omit h

variable (C)

theorem levelsAlike_eval (depth : Nat) :
    C.LevelsAlike (eval C.left depth) (eval C.right depth) := by
  induction depth with
  | zero => exact ⟨eval_confined _ 0, eval_confined _ 0, fun _ _ _ _ _ => .none⟩
  | succ depth ih => exact evalStep_alike ih

/-- **Like programs come to like ends**, evaluated to the same depth in frames that
stand for each other. -/
theorem eval_alike (depth : Nat) {d e : Datum} (hde : C.Code d e) (hfg : w.frames f g) :
    C.Alike w C.Value (eval C.left depth d f) (eval C.right depth e g) :=
  (C.levelsAlike_eval depth).alike hde hfg

/-- **Like procedures applied to like values come to like ends.** -/
theorem apply_alike (depth : Nat) {p p' : Procedure} (hp : C.terms.ProcedureLike C.base w p p')
    {args args' : List Datum} (hargs : List.Forall₂ (C.Value w) args args') {s t : Span}
    (hspan : C.terms.span s t) :
    C.Alike w C.Value (apply C.left depth p args s) (apply C.right depth p' args' t) :=
  applyWith_alike (C.levelsAlike_eval depth) hp hargs hspan

/-! ### Outcomes -/

section Outcomes

variable {s t s' t' : Store} {r r' : Except EvalError Datum}

/-- **Of two evaluations of like programs both end or neither does.** -/
theorem evaluates_iff (hfits : C.Fits w s t) {d e : Datum} (hde : C.Code d e)
    (hfg : w.frames f g) :
    (∃ r s', Evaluates C.left s d f r s') ↔ ∃ r t', Evaluates C.right t e g r t' :=
  exists_outcome_iff fun depth => C.eval_alike depth hde hfg hfits

/-- **Outcomes of like programs are alike.** -/
theorem evaluates_endsAlike (hfits : C.Fits w s t) {d e : Datum} (hde : C.Code d e)
    (hfg : w.frames f g) (hl : Evaluates C.left s d f r s') (hr : Evaluates C.right t e g r' t') :
    C.EndsAlike w C.Value (r, s') (r', t') :=
  outcome_rel (fun depth => C.eval_alike depth hde hfg hfits) Evaluates.unique hl hr

theorem applies_iff (hfits : C.Fits w s t) {p p' : Procedure}
    (hp : C.terms.ProcedureLike C.base w p p') {args args' : List Datum}
    (hargs : List.Forall₂ (C.Value w) args args') {a b : Span} (hspan : C.terms.span a b) :
    (∃ r s', Applies C.left s p args a r s') ↔ ∃ r t', Applies C.right t p' args' b r t' :=
  exists_outcome_iff fun depth => C.apply_alike depth hp hargs hspan hfits

theorem applies_endsAlike (hfits : C.Fits w s t) {p p' : Procedure}
    (hp : C.terms.ProcedureLike C.base w p p') {args args' : List Datum}
    (hargs : List.Forall₂ (C.Value w) args args') {a b : Span} (hspan : C.terms.span a b)
    (hl : Applies C.left s p args a r s') (hr : Applies C.right t p' args' b r' t') :
    C.EndsAlike w C.Value (r, s') (r', t') :=
  outcome_rel (fun depth => C.apply_alike depth hp hargs hspan hfits) Applies.unique hl hr

end Outcomes

end Correspondence

end SmallLisp
