import SmallLisp.Proofs.Eval.Outcome
import SmallLisp.Proofs.Stock.Basic
import SmallLisp.Proofs.Store.Growth

/-!
# Evaluation draws from one stock

If a program and the values that names are bound to are drawn from a stock, then so is what
comes of the program, the value as well as the span of an error; and the values that names
are bound to afterwards are drawn from it again (`SmallLisp.eval_drawsFrom`).

A value that is looked up takes the span of the name, so its own span in the store does not
matter, and the primitives, which no source text has produced, may be stored: it is enough
that values are *filled* from the stock (`SmallLisp.Datum.FilledFrom`).

The proof goes through the evaluator once. `SmallLisp.Action.Ensures` says of an action that
it keeps an invariant of the store and has a right result, and has one rule for each way to
make an action of others; the induction is on the depth.
-/

namespace SmallLisp

/-! ### What a store holds -/

namespace Store

variable {P : Datum → Prop} {s : Store} {f : FrameId}

/-- **Every value that a frame binds a name to has a property.** -/
def Holds (P : Datum → Prop) (s : Store) : Prop := ∀ f x v, (s.bindings f).get? x = some v → P v

theorem holds_empty : Store.empty.Holds P := by
  intro f x v h
  simp [empty, bindings] at h

theorem Holds.lookup? (h : s.Holds P) {x : String} {v : Datum} (hv : s.lookup? x f = some v) :
    P v := by
  obtain ⟨g, -, hg⟩ := Option.bind_eq_some_iff.mp hv
  exact h g x v hg

theorem Holds.modify (h : s.Holds P) {change : Bindings → Bindings}
    (hchange : ∀ x v, (change (s.bindings f)).get? x = some v → P v) :
    (s.modify f change).Holds P := by
  intro g x v hv
  rw [bindings_modify_eq] at hv
  split at hv
  · next hfg =>
    obtain ⟨rfl, -⟩ := hfg
    exact hchange x v hv
  · exact h g x v hv

theorem Holds.set (h : s.Holds P) (x : String) {v : Datum} (hv : P v) : (s.set f x v).Holds P := by
  refine h.modify fun y w hw => ?_
  rw [Bindings.get?_insert] at hw
  split at hw
  · obtain rfl := Option.some.inj hw
    exact hv
  · exact h f y w hw

theorem Holds.setAll {entries : List (String × Datum)} (h : s.Holds P)
    (hentries : ∀ e ∈ entries, P e.2) : (s.setAll f entries).Holds P := by
  induction entries generalizing s with
  | nil => exact h
  | cons e entries ih =>
    obtain ⟨he, hentries⟩ := List.forall_mem_cons.mp hentries
    exact ih (h.set e.1 he) hentries

theorem Holds.clear (h : s.Holds P) : (s.clear f).Holds P :=
  h.modify fun x v hv => by simp at hv

theorem Holds.addFrame (h : s.Holds P) (outer : Option FrameId) :
    (s.addFrame outer .empty).2.Holds P := by
  intro g x v hv
  rw [bindings_addFrame] at hv
  split at hv
  · cases hv
  · exact h g x v hv

theorem Holds.finish (h : s.Holds P) (policy : FramePolicy) (r : Except EvalError Datum) :
    (policy.finish f r s).Holds P := by
  cases policy with
  | keepAll => exact h
  | clearFinished =>
    rw [FramePolicy.finish]
    split
    · exact h
    · exact h.clear

theorem Holds.addRoot (h : s.Holds P) (hprimitive : ∀ p, P (.primitive p Span.none)) :
    s.addRoot.2.Holds P := by
  rw [snd_addRoot]
  refine (h.addFrame none).setAll fun e he => ?_
  obtain ⟨p, -, rfl⟩ := List.mem_map.mp he
  exact hprimitive p.2

end Store

/-! ### Actions that keep an invariant and have right results -/

namespace Action

variable {ε δ α β : Type} {I : Store → Prop} {E : ε → Prop} {Q : α → Prop} {R : β → Prop}

/-- **An action keeps an invariant of the store, and its result is right**: a value with the
property `Q`, or an error with the property `E`. -/
def Ensures (I : Store → Prop) (E : ε → Prop) (Q : α → Prop) (x : Action ε α) : Prop :=
  ∀ ⦃s r t⦄, I s → x s = some (r, t) → I t ∧ Meets E Q r

theorem ensures_inspect {f : Store → Except ε α} (h : ∀ s, I s → Meets E Q (f s)) :
    (inspect f).Ensures I E Q := by
  intro s r t hs hx
  obtain ⟨rfl, rfl⟩ := Prod.mk.inj (Option.some.inj hx)
  exact ⟨hs, h s hs⟩

theorem ensures_ofExcept {r : Except ε α} (h : Meets E Q r) : (ofExcept r).Ensures I E Q :=
  ensures_inspect fun _ _ => h

theorem ensures_pure {a : α} (h : Q a) : (Pure.pure a : Action ε α).Ensures I E Q :=
  ensures_ofExcept (r := .ok a) h

theorem ensures_fail {e : ε} (h : E e) : (fail e : Action ε α).Ensures I E Q :=
  ensures_ofExcept (r := .error e) h

theorem ensures_change {f : Store → Store} (h : ∀ s, I s → I (f s)) :
    (change f : Action ε Unit).Ensures I E fun _ => True := by
  intro s r t hs hx
  obtain ⟨rfl, rfl⟩ := Prod.mk.inj (Option.some.inj hx)
  exact ⟨h s hs, trivial⟩

theorem ensures_step {f : Store → α × Store} (h : ∀ s, I s → I (f s).2) :
    (step f : Action ε α).Ensures I E fun _ => True := by
  intro s r t hs hx
  obtain ⟨rfl, rfl⟩ := Prod.mk.inj (Option.some.inj hx)
  exact ⟨h s hs, trivial⟩

/-- One action after the other: the second is given a right value. -/
theorem Ensures.bind {x : Action ε α} {f : α → Action ε β} (hx : x.Ensures I E Q)
    (hf : ∀ a, Q a → (f a).Ensures I E R) : (x >>= f).Ensures I E R := by
  intro s r t hs h
  rcases bind_eq_some_iff.mp h with ⟨e, he, rfl⟩ | ⟨a, u, ha, hu⟩
  · exact hx hs he
  · obtain ⟨hu', hQ⟩ := hx hs ha
    exact hf a hQ hu' hu

theorem Ensures.mapError {D : δ → Prop} {x : Action ε α} (hx : x.Ensures I E Q) {g : ε → δ}
    (hg : ∀ e, E e → D (g e)) : (x.mapError g).Ensures I D Q := by
  intro s r t hs h
  rw [Action.mapError] at h
  rcases hxs : x s with - | ⟨e | a, u⟩ <;> rw [hxs] at h
  · cases h
  · obtain ⟨rfl, rfl⟩ := Prod.mk.inj (Option.some.inj h)
    obtain ⟨hu, he⟩ := hx hs hxs
    exact ⟨hu, hg e he⟩
  · obtain ⟨rfl, rfl⟩ := Prod.mk.inj (Option.some.inj h)
    exact hx hs hxs

/-- **A body that keeps what the store holds keeps it in a new frame**, if the values that the
frame begins with are right. -/
theorem ensures_withFrame {P : Datum → Prop} {E : EvalError → Prop} {Q : Datum → Prop}
    {policy : FramePolicy} {outer : FrameId} {entries : List (String × Datum)}
    {body : FrameId → Action EvalError Datum} (hentries : ∀ e ∈ entries, P e.2)
    (hbody : ∀ f, (body f).Ensures (Store.Holds P) E Q) :
    (withFrame policy outer entries body).Ensures (Store.Holds P) E Q := by
  intro s r t hs h
  obtain ⟨u, hu, rfl⟩ := withFrame_eq_some_iff.mp h
  obtain ⟨hu', hr⟩ := hbody _ ((hs.addFrame (some outer)).setAll hentries) hu
  exact ⟨hu'.finish policy r, hr⟩

end Action

/-! ### One level of evaluation -/

/-- **An action draws from a stock**: from a store whose values are filled from it, the action
comes to a right value, or to an error at a span of the stock, and leaves such a store. -/
abbrev Stock.Ensures {α : Type} (m : Stock) (Q : α → Prop) (x : Action EvalError α) : Prop :=
  x.Ensures (Store.Holds (Datum.FilledFrom m)) (fun e => m.span e.span) Q

/-- The induction hypothesis on the depth: the level below draws from the stock that its
expressions are drawn from. -/
def Evaluator.DrawsFrom (m : Stock) (ev : Evaluator) : Prop :=
  ∀ d f, d.DrawnFrom m → m.Ensures (Datum.DrawnFrom m) (ev d f)

section Level

variable {m : Stock} {policy : FramePolicy} {ev : Evaluator} {f : FrameId} {span : Span}

theorem ensures_set (x : String) {v : Datum} (hv : v.DrawnFrom m) :
    m.Ensures (fun _ => True) (Action.change (·.set f x v)) :=
  Action.ensures_change fun _ hs => hs.set x hv.filledFrom

theorem evalSymbol_ensures {name : String} (hspan : m.span span) :
    m.Ensures (Datum.DrawnFrom m) (evalSymbol f name span) := by
  refine Action.ensures_inspect fun s hs => ?_
  split
  · next v hv => exact hs.lookup? hv span hspan
  · exact hspan

variable (hev : ev.DrawsFrom m)

include hev

theorem evalElements_ensures {ds : List Datum} (hds : ∀ d ∈ ds, d.DrawnFrom m) :
    m.Ensures (fun vs => ∀ v ∈ vs, v.DrawnFrom m) (evalElements ev f ds) := by
  induction ds with
  | nil => exact Action.ensures_pure fun v hv => absurd hv List.not_mem_nil
  | cons d ds ih =>
    obtain ⟨hd, hds⟩ := List.forall_mem_cons.mp hds
    refine (hev d f hd).bind fun v hv => ?_
    refine (ih hds).bind fun vs hvs => ?_
    exact Action.ensures_pure (List.forall_mem_cons.mpr ⟨hv, hvs⟩)

theorem evalBody_ensures {result : Datum} (hresult : result.DrawnFrom m) {ds : List Datum}
    (hds : ∀ d ∈ ds, d.DrawnFrom m) :
    m.Ensures (Datum.DrawnFrom m) (evalBody ev f result ds) := by
  induction ds generalizing result with
  | nil => exact Action.ensures_pure hresult
  | cons d ds ih =>
    obtain ⟨hd, hds⟩ := List.forall_mem_cons.mp hds
    exact (hev d f hd).bind fun v hv => ih hv hds

theorem evalBindings_ensures {bs : List (String × Datum)} (hbs : ∀ b ∈ bs, b.2.DrawnFrom m) :
    m.Ensures (fun _ => True) (evalBindings ev f bs) := by
  induction bs with
  | nil => exact Action.ensures_pure trivial
  | cons b bs ih =>
    obtain ⟨hb, hbs⟩ := List.forall_mem_cons.mp hbs
    refine (hev b.2 f hb).bind fun v hv => ?_
    exact (ensures_set b.1 hv).bind fun _ _ => ih hbs

theorem applyClosure_ensures {c : Closure} (hbody : ∀ d ∈ c.body, d.DrawnFrom m)
    {args : List Datum} (hargs : ∀ d ∈ args, d.DrawnFrom m) (hspan : m.span span) :
    m.Ensures (Datum.DrawnFrom m) (applyClosure policy ev c args span) := by
  rw [applyClosure]
  split
  · refine Action.ensures_withFrame (fun e he => ?_) fun g => ?_
    · exact (hargs e.2 (List.of_mem_zip he).2).filledFrom
    · exact evalBody_ensures hev (Datum.drawnFrom_atom.mpr ⟨hspan, m.boolean false⟩) hbody
  · exact Action.ensures_fail hspan

/-- A value that is applied is drawn from the stock, and so is the body of a closure. -/
theorem applyWith_ensures {d : Datum} (hd : d.DrawnFrom m) {p : Procedure}
    (hp : d.procedure? = some p) {args : List Datum} (hargs : ∀ d ∈ args, d.DrawnFrom m)
    (hspan : m.span span) : m.Ensures (Datum.DrawnFrom m) (applyWith policy ev p args span) := by
  cases d with
  | atom | list => cases hp
  | primitive p s =>
    obtain rfl := Option.some.inj hp
    exact Action.ensures_ofExcept (p.meets_apply hargs hspan)
  | closure id params body frame s =>
    obtain rfl := Option.some.inj hp
    exact applyClosure_ensures hev (Datum.drawnFrom_closure.mp hd).2 hargs hspan

theorem evalApplication_ensures {ds : List Datum} (hds : ∀ d ∈ ds, d.DrawnFrom m)
    (hspan : m.span span) :
    m.Ensures (Datum.DrawnFrom m) (evalApplication policy ev f ds span) := by
  refine (evalElements_ensures hev hds).bind fun vs hvs => ?_
  split
  · next p hp =>
    obtain ⟨v, hv, hp⟩ := Option.bind_eq_some_iff.mp hp
    exact applyWith_ensures hev (hvs v (List.mem_of_mem_head? hv)) hp
      (fun d hd => hvs d (List.mem_of_mem_tail hd)) hspan
  · exact Action.ensures_pure (Datum.drawnFrom_list.mpr ⟨hspan, hvs⟩)

theorem evalForm_ensures {keyword : Keyword} {ds : List Datum} {form : SpecialForm}
    (hform : SpecialForm.MadeOf keyword ds form) (hds : ∀ d ∈ ds, d.DrawnFrom m)
    (hspan : m.span span) : m.Ensures (Datum.DrawnFrom m) (evalForm policy ev f span form) := by
  cases hform with
  | @letStar pairs bindings a body hbindings =>
    obtain ⟨hpairs, hrest⟩ := List.forall_mem_cons.mp hds
    have hbody := List.forall_mem_singleton.mp hrest
    rw [evalForm]
    refine Action.ensures_withFrame (fun e he => absurd he List.not_mem_nil) fun g => ?_
    have hvalues : ∀ b ∈ bindings, b.2.DrawnFrom m := fun b hb =>
      (Datum.drawnFrom_list.mp hpairs).2 b.2 (SpecialForm.mem_of_bindingPairs hbindings b hb)
    exact (evalBindings_ensures hev hvalues).bind fun _ _ => hev body g hbody
  | @define name a value =>
    have hvalue := List.forall_mem_singleton.mp (List.forall_mem_cons.mp hds).2
    refine (hev value f hvalue).bind fun v hv => ?_
    exact (ensures_set name hv).bind fun _ _ => Action.ensures_pure hv
  | @oneArmed c d =>
    obtain ⟨hc, hrest⟩ := List.forall_mem_cons.mp hds
    have hd := List.forall_mem_singleton.mp hrest
    refine (hev c f hc).bind fun v _ => ?_
    split
    · exact hev d f hd
    · exact Action.ensures_pure (Datum.drawnFrom_atom.mpr ⟨hspan, m.boolean false⟩)
  | @twoArmed c d e =>
    obtain ⟨hc, hrest⟩ := List.forall_mem_cons.mp hds
    obtain ⟨hd, hrest⟩ := List.forall_mem_cons.mp hrest
    have he := List.forall_mem_singleton.mp hrest
    refine (hev c f hc).bind fun v _ => ?_
    split
    · exact hev d f hd
    · exact hev e f he
  | lambda _ =>
    obtain ⟨-, hbody⟩ := List.forall_mem_cons.mp hds
    -- a new closure changes the count of closures, and no binding
    refine Action.Ensures.bind (Action.ensures_step fun s hs => hs) fun id _ => ?_
    exact Action.ensures_pure (Datum.drawnFrom_closure.mpr ⟨hspan, hbody⟩)
  | quote => exact Action.ensures_pure (hds _ List.mem_cons_self)

/-- **One level of evaluation draws from the stock that the level below draws from.** -/
theorem evalStep_drawsFrom : (evalStep policy ev).DrawsFrom m := by
  intro d f hd
  rcases d with ⟨_ | _ | _ | name, span⟩ | ⟨_ | ⟨d, ds⟩, span⟩ | _ | _
  case atom.symbol => exact evalSymbol_ensures (Datum.drawnFrom_atom.mp hd).1
  case list.cons =>
    obtain ⟨hspan, hds⟩ := Datum.drawnFrom_list.mp hd
    rw [evalStep]
    split
    · next keyword _ =>
      have hoperands := (List.forall_mem_cons.mp hds).2
      have hform := SpecialForm.meets_ofOperands keyword hoperands hspan
      refine (Action.ensures_ofExcept hform).bind fun form hmade => ?_
      exact evalForm_ensures hev hmade hoperands hspan
    · exact evalApplication_ensures hev hds hspan
  -- Everything else evaluates to itself.
  all_goals exact Action.ensures_pure hd

end Level

/-- **Evaluation draws from the stock** that its expression is drawn from. -/
theorem eval_drawsFrom (m : Stock) (policy : FramePolicy) (depth : Nat) :
    (eval policy depth).DrawsFrom m := by
  induction depth with
  | zero =>
    intro d f _ s r t _ h
    simp at h
  | succ depth ih => exact evalStep_drawsFrom ih

end SmallLisp
