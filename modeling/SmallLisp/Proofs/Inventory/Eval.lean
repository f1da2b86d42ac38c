import SmallLisp.Proofs.Inventory.Basic

/-!
# Evaluation keeps an inventory

If an inventory accounts for a store and lists an expression and the frame it is evaluated in,
then a larger inventory accounts for the store that the evaluation leaves, and lists the value or
what the error hands on (`SmallLisp.eval_enlarges`). The same goes for the application of a
procedure that is listed (`SmallLisp.applyWith_enlarges`).

The inventory to end with cannot be told beforehand, since it depends on what is made on the way.
`SmallLisp.Action.Enlarges` therefore says that there is one; and of two actions, the second begins
with the inventory that the first has ended with. That the first inventory is still right for what
was listed in it is the monotonicity of `SmallLisp.Inventory.Lists`. An error leaves an inventory,
too, so that nothing has to be undone when an evaluation breaks off.
-/

namespace SmallLisp

/-! ### Actions that enlarge an inventory -/

namespace Action

variable {ε δ α β : Type} {w : Inventory} {E : Inventory → ε → Prop} {Q : Inventory → α → Prop}
  {R : Inventory → β → Prop}

/-- **An action enlarges an inventory**: from a store that the inventory accounts for, it comes to
one that a larger inventory accounts for, and by that inventory its result is right. -/
def Enlarges (w : Inventory) (E : Inventory → ε → Prop) (Q : Inventory → α → Prop)
    (x : Action ε α) : Prop :=
  ∀ ⦃s r t⦄, w.Accounts s → x s = some (r, t) →
    ∃ w', w ≤ w' ∧ w'.Accounts t ∧ Meets (E w') (Q w') r

/-- What is known of an inventory that accounts for some store may be used. -/
theorem enlarges_of_accounts {x : Action ε α} (h : ∀ s, w.Accounts s → x.Enlarges w E Q) :
    x.Enlarges w E Q :=
  fun s _ _ hs hx => h s hs hs hx

theorem enlarges_inspect {f : Store → Except ε α}
    (h : ∀ s, w.Accounts s → Meets (E w) (Q w) (f s)) : (inspect f).Enlarges w E Q := by
  intro s r t hs hx
  obtain ⟨rfl, rfl⟩ := Prod.mk.inj (Option.some.inj hx)
  exact ⟨w, le_rfl, hs, h s hs⟩

theorem enlarges_ofExcept {r : Except ε α} (h : Meets (E w) (Q w) r) :
    (ofExcept r).Enlarges w E Q :=
  enlarges_inspect fun _ _ => h

theorem enlarges_pure {a : α} (h : Q w a) : (Pure.pure a : Action ε α).Enlarges w E Q :=
  enlarges_ofExcept (r := .ok a) h

theorem enlarges_fail {e : ε} (h : E w e) : (fail e : Action ε α).Enlarges w E Q :=
  enlarges_ofExcept (r := .error e) h

theorem enlarges_change {f : Store → Store} (h : ∀ s, w.Accounts s → w.Accounts (f s)) :
    (change f : Action ε Unit).Enlarges w E fun _ _ => True := by
  intro s r t hs hx
  obtain ⟨rfl, rfl⟩ := Prod.mk.inj (Option.some.inj hx)
  exact ⟨w, le_rfl, h s hs, trivial⟩

/-- A step that makes something: the inventory has to be enlarged by it. -/
theorem enlarges_step {f : Store → α × Store}
    (h : ∀ s, w.Accounts s → ∃ w', w ≤ w' ∧ w'.Accounts (f s).2 ∧ Q w' (f s).1) :
    (step f : Action ε α).Enlarges w E Q := by
  intro s r t hs hx
  obtain ⟨rfl, rfl⟩ := Prod.mk.inj (Option.some.inj hx)
  exact h s hs

/-- One action after the other: the second begins with the inventory that the first ends with. -/
theorem Enlarges.bind {x : Action ε α} {f : α → Action ε β} (hx : x.Enlarges w E Q)
    (hf : ∀ w' a, w ≤ w' → Q w' a → (f a).Enlarges w' E R) : (x >>= f).Enlarges w E R := by
  intro s r t hs h
  rcases bind_eq_some_iff.mp h with ⟨e, he, rfl⟩ | ⟨a, u, ha, hu⟩
  · exact hx hs he
  · obtain ⟨w', hle, hu', hQ⟩ := hx hs ha
    obtain ⟨w'', hle', ht, hR⟩ := hf w' a hle hQ hu' hu
    exact ⟨w'', hle.trans hle', ht, hR⟩

theorem Enlarges.mapError {D : Inventory → δ → Prop} {x : Action ε α} (hx : x.Enlarges w E Q)
    {g : ε → δ} (hg : ∀ w e, E w e → D w (g e)) : (x.mapError g).Enlarges w D Q := by
  intro s r t hs h
  rw [Action.mapError] at h
  rcases hxs : x s with - | ⟨e | a, u⟩ <;> rw [hxs] at h
  · cases h
  · obtain ⟨rfl, rfl⟩ := Prod.mk.inj (Option.some.inj h)
    obtain ⟨w', hle, hu, he⟩ := hx hs hxs
    exact ⟨w', hle, hu, hg w' e he⟩
  · obtain ⟨rfl, rfl⟩ := Prod.mk.inj (Option.some.inj h)
    exact hx hs hxs

/-- **A body that enlarges every larger inventory does so in a new frame**, which is added to the
inventory first. -/
theorem enlarges_withFrame {E : Inventory → EvalError → Prop} {Q : Inventory → Datum → Prop}
    {policy : FramePolicy} {outer : FrameId} {entries : List (String × Datum)}
    {body : FrameId → Action EvalError Datum} (houter : outer ∈ w.frames)
    (hentries : ∀ e ∈ entries, w.Lists e.2)
    (hbody : ∀ w' f, w ≤ w' → f ∈ w'.frames → (body f).Enlarges w' E Q) :
    (withFrame policy outer entries body).Enlarges w E Q := by
  intro s r t hs h
  obtain ⟨u, hu, rfl⟩ := withFrame_eq_some_iff.mp h
  have hle := w.le_addFrame s.frames.size
  have hnew : (w.addFrame s.frames.size).Accounts (s.addFrame (some outer) .empty).2 :=
    hs.addFrame fun o ho => Option.some.inj ho ▸ houter
  have hbound := hnew.setAll (f := s.frames.size) fun e he => (hentries e he).mono hle
  obtain ⟨w', hle', hu', hr⟩ := hbody _ _ hle (Set.mem_insert _ _) hbound hu
  exact ⟨w', hle.trans hle', hu'.finish policy _ r, hr⟩

end Action

/-! ### One level of evaluation -/

/-- An action of evaluation enlarges an inventory, which then lists what its error hands on. -/
abbrev Inventory.Enlarges {α : Type} (w : Inventory) (Q : Inventory → α → Prop)
    (x : Action EvalError α) : Prop :=
  x.Enlarges w Inventory.ListsError Q

/-- The induction hypothesis on the depth: the level below enlarges every inventory that lists its
expression and its frame, so as to list its value. -/
def Evaluator.Enlarges (ev : Evaluator) : Prop :=
  ∀ (w : Inventory) d f, w.Lists d → f ∈ w.frames → w.Enlarges Inventory.Lists (ev d f)

section Level

variable {w : Inventory} {policy : FramePolicy} {ev : Evaluator} {f : FrameId} {span : Span}

theorem enlarges_set (x : String) {v : Datum} (hv : w.Lists v) :
    w.Enlarges (fun _ _ => True) (Action.change (·.set f x v)) :=
  Action.enlarges_change fun _ hs => hs.set x hv

theorem evalSymbol_enlarges (name : String) :
    w.Enlarges Inventory.Lists (evalSymbol f name span) := by
  refine Action.enlarges_inspect fun s hs => ?_
  split
  · next v hv =>
    intro k hk
    rw [Datum.closures_withSpan] at hk
    exact hs.holds.lookup? hv k hk
  · exact List.forall_mem_nil _

/-- **A new closure is added to the inventory**, with the frame that it is made in. -/
theorem evalForm_lambda_enlarges (params : List String) {body : List Datum} (hf : f ∈ w.frames)
    (hbody : ∀ e ∈ body, w.Lists e) :
    w.Enlarges Inventory.Lists (evalForm policy ev f span (.lambda params body)) := by
  let made (id : Nat) : Closure := ⟨id, params, body, f⟩
  have hmade : (Action.step Store.addClosure).Enlarges w Inventory.ListsError
      fun w' id => made id ∈ w'.closures :=
    Action.enlarges_step fun s hs =>
      ⟨_, w.le_addClosure (made s.nextClosure), hs.addClosure rfl hf hbody, Set.mem_insert _ _⟩
  refine hmade.bind fun w' id hle hid => Action.enlarges_pure ?_
  exact Inventory.lists_closure.mpr ⟨hid, fun e he => (hbody e he).mono hle⟩

variable (hev : ev.Enlarges)

include hev

theorem evalElements_enlarges (hf : f ∈ w.frames) {ds : List Datum} (hds : ∀ d ∈ ds, w.Lists d) :
    w.Enlarges (fun w vs => ∀ v ∈ vs, w.Lists v) (evalElements ev f ds) := by
  induction ds generalizing w with
  | nil => exact Action.enlarges_pure (List.forall_mem_nil _)
  | cons d ds ih =>
    obtain ⟨hd, hds⟩ := List.forall_mem_cons.mp hds
    refine (hev w d f hd hf).bind fun w' v hle hv => ?_
    refine (ih (hle.1 hf) fun e he => (hds e he).mono hle).bind fun w'' vs hle' hvs => ?_
    exact Action.enlarges_pure (List.forall_mem_cons.mpr ⟨hv.mono hle', hvs⟩)

theorem evalBody_enlarges (hf : f ∈ w.frames) {result : Datum} (hresult : w.Lists result)
    {ds : List Datum} (hds : ∀ d ∈ ds, w.Lists d) :
    w.Enlarges Inventory.Lists (evalBody ev f result ds) := by
  induction ds generalizing w result with
  | nil => exact Action.enlarges_pure hresult
  | cons d ds ih =>
    obtain ⟨hd, hds⟩ := List.forall_mem_cons.mp hds
    refine (hev w d f hd hf).bind fun w' v hle hv => ?_
    exact ih (hle.1 hf) hv fun e he => (hds e he).mono hle

theorem evalBindings_enlarges (hf : f ∈ w.frames) {bs : List (String × Datum)}
    (hbs : ∀ b ∈ bs, w.Lists b.2) : w.Enlarges (fun _ _ => True) (evalBindings ev f bs) := by
  induction bs generalizing w with
  | nil => exact Action.enlarges_pure trivial
  | cons b bs ih =>
    obtain ⟨hb, hbs⟩ := List.forall_mem_cons.mp hbs
    refine (hev w b.2 f hb hf).bind fun w' v hle hv => ?_
    refine (enlarges_set b.1 hv).bind fun w'' _ hle' _ => ?_
    have hle'' := hle.trans hle'
    exact ih (hle''.1 hf) fun c hc => (hbs c hc).mono hle''

/-- A closure that is listed runs in a frame inside one that is listed, and what its body holds is
listed as well. -/
theorem applyClosure_enlarges {c : Closure} (hc : c ∈ w.closures) {args : List Datum}
    (hargs : ∀ d ∈ args, w.Lists d) :
    w.Enlarges Inventory.Lists (applyClosure policy ev c args span) := by
  refine Action.enlarges_of_accounts fun s hs => ?_
  rw [applyClosure]
  split
  · refine Action.enlarges_withFrame (hs.frame_mem c hc) (fun e he => ?_) fun w' g hle hg => ?_
    · exact hargs e.2 (List.of_mem_zip he).2
    · exact evalBody_enlarges hev hg (Inventory.lists_atom (.boolean false)) fun e he =>
        (hs.body_listed c hc e he).mono hle
  · exact Action.enlarges_fail (List.forall_mem_nil _)

theorem applyWith_enlarges {p : Procedure} (hp : ∀ c, p = .closure c → c ∈ w.closures)
    {args : List Datum} (hargs : ∀ d ∈ args, w.Lists d) :
    w.Enlarges Inventory.Lists (applyWith policy ev p args span) := by
  cases p with
  | primitive p => exact Action.enlarges_ofExcept ((w.passedOn span).meets_apply p hargs)
  | closure c => exact applyClosure_enlarges hev (hp c rfl) hargs

theorem evalApplication_enlarges (hf : f ∈ w.frames) {ds : List Datum}
    (hds : ∀ d ∈ ds, w.Lists d) :
    w.Enlarges Inventory.Lists (evalApplication policy ev f ds span) := by
  refine (evalElements_enlarges hev hf hds).bind fun w' vs _ hvs => ?_
  split
  · next p hp =>
    obtain ⟨v, hv, hp⟩ := Option.bind_eq_some_iff.mp hp
    have hlisted := hvs v (List.mem_of_mem_head? hv)
    refine applyWith_enlarges hev (fun c hc => hlisted c ?_) fun d hd =>
      hvs d (List.mem_of_mem_tail hd)
    exact Datum.mem_closures_of_procedure? (hc ▸ hp)
  · exact Action.enlarges_pure (Inventory.lists_list.mpr hvs)

theorem evalForm_enlarges (hf : f ∈ w.frames) {keyword : Keyword} {ds : List Datum}
    {form : SpecialForm} (hform : SpecialForm.MadeOf keyword ds form)
    (hds : ∀ d ∈ ds, w.Lists d) :
    w.Enlarges Inventory.Lists (evalForm policy ev f span form) := by
  cases hform with
  | @letStar pairs bindings a body hbindings =>
    obtain ⟨hpairs, hrest⟩ := List.forall_mem_cons.mp hds
    have hbody := List.forall_mem_singleton.mp hrest
    have hvalues : ∀ b ∈ bindings, w.Lists b.2 := fun b hb =>
      Inventory.lists_list.mp hpairs b.2 (SpecialForm.mem_of_bindingPairs hbindings b hb)
    rw [evalForm]
    refine Action.enlarges_withFrame hf (List.forall_mem_nil _) fun w' g hle hg => ?_
    refine (evalBindings_enlarges hev hg fun b hb => (hvalues b hb).mono hle).bind ?_
    exact fun w'' _ hle' _ => hev w'' body g (hbody.mono (hle.trans hle')) (hle'.1 hg)
  | @define name a value =>
    have hvalue := List.forall_mem_singleton.mp (List.forall_mem_cons.mp hds).2
    refine (hev w value f hvalue hf).bind fun w' v hle hv => ?_
    refine (enlarges_set name hv).bind fun w'' _ hle' _ => ?_
    exact Action.enlarges_pure (hv.mono hle')
  | @oneArmed c d =>
    obtain ⟨hc, hrest⟩ := List.forall_mem_cons.mp hds
    have hd := List.forall_mem_singleton.mp hrest
    refine (hev w c f hc hf).bind fun w' v hle _ => ?_
    split
    · exact hev w' d f (hd.mono hle) (hle.1 hf)
    · exact Action.enlarges_pure (Inventory.lists_atom (.boolean false))
  | @twoArmed c d e =>
    obtain ⟨hc, hrest⟩ := List.forall_mem_cons.mp hds
    obtain ⟨hd, hrest⟩ := List.forall_mem_cons.mp hrest
    have he := List.forall_mem_singleton.mp hrest
    refine (hev w c f hc hf).bind fun w' v hle _ => ?_
    split
    · exact hev w' d f (hd.mono hle) (hle.1 hf)
    · exact hev w' e f (he.mono hle) (hle.1 hf)
  | lambda _ => exact evalForm_lambda_enlarges _ hf (List.forall_mem_cons.mp hds).2
  | quote => exact Action.enlarges_pure (hds _ List.mem_cons_self)

/-- **One level of evaluation enlarges an inventory when the level below does.** -/
theorem evalStep_enlarges : (evalStep policy ev).Enlarges := by
  intro w d f hd hf
  rcases d with ⟨_ | _ | _ | name, span⟩ | ⟨_ | ⟨d, ds⟩, span⟩ | _ | _
  case atom.symbol => exact evalSymbol_enlarges name
  case list.cons =>
    have hds := Inventory.lists_list.mp hd
    rw [evalStep]
    split
    · next keyword _ =>
      have hoperands := (List.forall_mem_cons.mp hds).2
      have hform := (w.passedOn span).meets_ofOperands keyword hoperands
      refine Action.Enlarges.bind (Q := fun _ => SpecialForm.MadeOf keyword ds)
        (Action.enlarges_ofExcept hform) fun w' form hle hmade => ?_
      exact evalForm_enlarges hev (hle.1 hf) hmade fun e he => (hoperands e he).mono hle
    · exact evalApplication_enlarges hev hf hds
  -- Everything else evaluates to itself.
  all_goals exact Action.enlarges_pure hd

end Level

/-- **Evaluation enlarges every inventory** that lists the expression and the frame. -/
theorem eval_enlarges (policy : FramePolicy) (depth : Nat) : (eval policy depth).Enlarges := by
  induction depth with
  | zero =>
    intro w d f _ _ s r t _ h
    simp at h
  | succ depth ih => exact evalStep_enlarges ih

end SmallLisp
