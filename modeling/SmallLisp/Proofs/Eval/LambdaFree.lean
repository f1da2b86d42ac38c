import SmallLisp.Proofs.Likeness.Exact
import SmallLisp.Proofs.Likeness.Primitive
import SmallLisp.Proofs.Stock.Eval
import SmallLisp.Proofs.Store.Chain
import SmallLisp.Proofs.Unreferenced

/-!
# Programs without `lambda` end

Evaluation need not end, but it only goes on for ever through the bodies of closures. Where the
name `lambda` does not occur in an expression and no closure can be looked up from its frame,
no closure is ever made or applied, and each evaluation inside another is that of a part of the
expression. So the nesting of the expression (`SmallLisp.Datum.nesting`) bounds the depth of the
recursion (`SmallLisp.lambda_free_evaluation_ends`).

That no closure can be looked up has to be kept up while names are bound and frames are made, and
other frames of the store may well bind closures. The invariant is therefore about a set of
frames (`SmallLisp.Store.ClosureFreeOn`): no closure is bound in a frame of the set, no link leads
out of it, and all frames that are still to be made belong to it. So the set need not change when
a frame is made.
-/

namespace SmallLisp

/-! ### Data without closures -/

namespace Datum

mutual

/-- **The nesting of a datum**: how many lists stand around its innermost part. -/
def nesting : Datum → Nat
  | .atom _ _ => 0
  | .list es _ => nestingOfAll es + 1
  | .primitive _ _ => 0
  | .closure _ _ _ _ _ => 0

/-- The greatest nesting of the data of a list. -/
def nestingOfAll : List Datum → Nat
  | [] => 0
  | d :: ds => max (nesting d) (nestingOfAll ds)

end

theorem nesting_le_nestingOfAll {e : Datum} {es : List Datum} (he : e ∈ es) :
    e.nesting ≤ nestingOfAll es := by
  induction es with
  | nil => exact absurd he List.not_mem_nil
  | cons d ds ih =>
    rw [nestingOfAll]
    rcases List.mem_cons.mp he with rfl | he
    · exact le_max_left _ _
    · exact (ih he).trans (le_max_right _ _)

/-- The elements of a list are nested less than the list. -/
theorem nesting_lt_of_mem {e : Datum} {es : List Datum} {s : Span} (he : e ∈ es) :
    e.nesting < (Datum.list es s).nesting :=
  Nat.lt_succ_of_le (nesting_le_nestingOfAll he)

theorem holdsClosure_withSpan (d : Datum) (s : Span) :
    (d.withSpan s).holdsClosure = d.holdsClosure := by
  cases d <;> rfl

theorem holdsClosure_list_eq_false_iff {es : List Datum} {s : Span} :
    (Datum.list es s).holdsClosure = false ↔ ∀ e ∈ es, e.holdsClosure = false := by
  rw [holdsClosure_list, List.any_eq_false]
  exact forall₂_congr fun e _ => Bool.not_eq_true _ ▸ Iff.rfl

/-- A datum that captures nothing holds no closure. -/
theorem holdsClosure_eq_false_iff {d : Datum} : d.holdsClosure = false ↔ d.captured = [] := by
  refine ⟨captured_eq_nil, fun h => ?_⟩
  induction d using Datum.induction with
  | atom | primitive => rfl
  | list es s ih =>
    refine holdsClosure_list_eq_false_iff.mpr fun e he => ih e he ?_
    refine List.eq_nil_iff_forall_not_mem.mpr fun g hg => ?_
    have : g ∈ (Datum.list es s).captured := mem_capturedByAll.mpr ⟨e, he, hg⟩
    rw [h] at this
    exact List.not_mem_nil this
  | closure => cases h

/-- The only procedures that are no closures are the primitives. -/
theorem exists_primitive_of_procedure? {d : Datum} (hd : d.holdsClosure = false) {p : Procedure}
    (hp : d.procedure? = some p) : ∃ q, p = .primitive q := by
  cases d with
  | atom | list => cases hp
  | primitive q => exact ⟨q, (Option.some.inj hp).symm⟩
  | closure => cases hd

end Datum

/-- **Primitives make no closures.** -/
theorem Primitive.holdsClosure_of_apply {p : Primitive} {args : List Datum} {span : Span}
    (hargs : ∀ d ∈ args, d.holdsClosure = false) {v : Datum} (h : p.apply args span = .ok v) :
    v.holdsClosure = false := by
  -- arguments that capture no frame are like themselves where no frame stands for any
  have hself : List.Forall₂ (Terms.exact.Value (.on ∅) (.on ∅)) args args := by
    refine List.forall₂_same.mpr fun d hd => Terms.value_exact_on_iff.mpr ⟨?_, rfl⟩
    rw [Datum.captured_eq_nil (hargs d hd)]
    exact List.forall_mem_nil _
  have halike := p.apply_outcome (T := Terms.exact) (P := .on ∅) (s := span) (t := span)
    (by rintro i _ i' _ rfl rfl; exact Iff.rfl) hself rfl
  rw [h] at halike
  cases halike with
  | ok hvalue =>
    exact Datum.holdsClosure_eq_false_iff.mpr
      (List.eq_nil_iff_forall_not_mem.mpr (Terms.value_exact_on_iff.mp hvalue).1)

/-! ### Frames without closures -/

namespace Store

variable {C : Set FrameId} {s : Store} {f : FrameId}

/-- **No closure can be looked up from a frame**: none is bound in its chain, be it by itself or
in a list. -/
def ClosureFreeFrom (f : FrameId) (s : Store) : Prop :=
  ∀ g ∈ s.chain f, ∀ x v, (s.bindings g).get? x = some v → v.holdsClosure = false

/-- **A set of frames in which no closure is bound**, which links do not lead out of, and to which
all frames belong that are not there yet. -/
structure ClosureFreeOn (C : Set FrameId) (s : Store) : Prop where
  /-- The frames that are still to be made belong to the set. -/
  mem_of_size_le : ∀ g, s.frames.size ≤ g → g ∈ C
  /-- The links that a lookup follows stay in the set. -/
  mem_of_outer? : ∀ g ∈ C, ∀ o < g, s.outer? g = some o → o ∈ C
  /-- No closure is bound in a frame of the set. -/
  holdsClosure_eq : ∀ g ∈ C, ∀ x v, (s.bindings g).get? x = some v → v.holdsClosure = false

namespace ClosureFreeOn

/-- No chain that begins in the set leaves it. -/
theorem mem_of_mem_chain (h : s.ClosureFreeOn C) {g : FrameId} (hf : f ∈ C)
    (hg : g ∈ s.chain f) : g ∈ C := by
  fun_induction chain s f with
  | case1 f o hlink ho ih =>
    rcases List.mem_cons.mp hg with rfl | hg
    · exact hf
    · exact ih (h.mem_of_outer? f hf o ho hlink) hg
  | case2 f o _ _ => exact List.mem_singleton.mp hg ▸ hf
  | case3 f _ => exact List.mem_singleton.mp hg ▸ hf

theorem closureFreeFrom (h : s.ClosureFreeOn C) (hf : f ∈ C) : s.ClosureFreeFrom f :=
  fun g hg => h.holdsClosure_eq g (h.mem_of_mem_chain hf hg)

theorem modify (h : s.ClosureFreeOn C) {change : Bindings → Bindings}
    (hchange : ∀ x v, (change (s.bindings f)).get? x = some v →
      (s.bindings f).get? x = some v ∨ v.holdsClosure = false) :
    (s.modify f change).ClosureFreeOn C where
  mem_of_size_le g hg := h.mem_of_size_le g (by rwa [size_modify] at hg)
  mem_of_outer? g hg o ho hlink := h.mem_of_outer? g hg o ho (by rwa [outer?_modify] at hlink)
  holdsClosure_eq g hg x v hv := by
    rw [bindings_modify_eq] at hv
    split at hv
    · next hfg =>
      obtain ⟨rfl, -⟩ := hfg
      rcases hchange x v hv with hold | hfree
      · exact h.holdsClosure_eq f hg x v hold
      · exact hfree
    · exact h.holdsClosure_eq g hg x v hv

theorem set (h : s.ClosureFreeOn C) (x : String) {v : Datum} (hv : v.holdsClosure = false) :
    (s.set f x v).ClosureFreeOn C := by
  refine h.modify fun y w hw => ?_
  rw [Bindings.get?_insert] at hw
  split at hw
  · obtain rfl := Option.some.inj hw
    exact .inr hv
  · exact .inl hw

theorem finish (h : s.ClosureFreeOn C) (policy : FramePolicy) (r : Except EvalError Datum) :
    (policy.finish f r s).ClosureFreeOn C := by
  cases policy with
  | keepAll => exact h
  | clearFinished =>
    rw [FramePolicy.finish]
    split
    · exact h
    · exact h.modify fun x v hv => by simp at hv

/-- A new frame belongs to the set already; its link has to lead into it. -/
theorem addFrame (h : s.ClosureFreeOn C) (hf : f ∈ C) :
    (s.addFrame (some f) .empty).2.ClosureFreeOn C where
  mem_of_size_le g hg := h.mem_of_size_le g (by rw [size_addFrame] at hg; omega)
  mem_of_outer? g hg o ho hlink := by
    rw [outer?_addFrame] at hlink
    split at hlink
    · exact Option.some.inj hlink ▸ hf
    · exact h.mem_of_outer? g hg o ho hlink
  holdsClosure_eq g hg x v hv := by
    rw [bindings_addFrame] at hv
    split at hv
    · cases hv
    · exact h.holdsClosure_eq g hg x v hv

end ClosureFreeOn

/-- A frame that is not there has no link and binds nothing. -/
theorem outer?_eq_none (h : s.frames.size ≤ f) : s.outer? f = none := by
  rw [outer?, Array.getElem?_eq_none h]
  rfl

theorem bindings_eq_empty (h : s.frames.size ≤ f) : s.bindings f = .empty := by
  rw [bindings, Array.getElem?_eq_none h]
  rfl

/-- **The set to begin with**: the chain of a frame, and the frames that are not there yet. -/
theorem ClosureFreeFrom.closureFreeOn (h : s.ClosureFreeFrom f) :
    s.ClosureFreeOn {g | g ∈ s.chain f ∨ s.frames.size ≤ g} where
  mem_of_size_le g hg := .inr hg
  mem_of_outer? g hg o ho hlink := by
    rcases hg with hg | hg
    · exact .inl (mem_chain_of_outer? hg hlink ho)
    · rw [outer?_eq_none hg] at hlink
      cases hlink
  holdsClosure_eq g hg x v hv := by
    rcases hg with hg | hg
    · exact h g hg x v hv
    · rw [bindings_eq_empty hg] at hv
      cases hv

end Store

/-! ### Actions that end -/

namespace Action

variable {ε α β : Type} {I : Store → Prop} {Q : α → Prop} {R : β → Prop}

/-- **An action settles**: from a store with the invariant it ends, in such a store again, and its
value, if it gives one, is right. -/
def Settles (I : Store → Prop) (Q : α → Prop) (x : Action ε α) : Prop :=
  ∀ ⦃s⦄, I s → ∃ r t, x s = some (r, t) ∧ I t ∧ ∀ a, r = .ok a → Q a

theorem settles_inspect {f : Store → Except ε α} (h : ∀ s, I s → ∀ a, f s = .ok a → Q a) :
    (inspect f).Settles I Q :=
  fun s hs => ⟨f s, s, rfl, hs, h s hs⟩

theorem settles_ofExcept {r : Except ε α} (h : ∀ a, r = .ok a → Q a) :
    (ofExcept r).Settles I Q :=
  settles_inspect fun _ _ => h

theorem settles_pure {a : α} (h : Q a) : (Pure.pure a : Action ε α).Settles I Q :=
  settles_ofExcept (r := .ok a) fun _ hb => Except.ok.inj hb ▸ h

theorem settles_change {f : Store → Store} (h : ∀ s, I s → I (f s)) :
    (change f : Action ε Unit).Settles I fun _ => True :=
  fun s hs => ⟨.ok (), f s, rfl, h s hs, fun _ _ => trivial⟩

/-- One action after the other: the second begins where the first has ended. -/
theorem Settles.bind {x : Action ε α} {f : α → Action ε β} (hx : x.Settles I Q)
    (hf : ∀ a, Q a → (f a).Settles I R) : (x >>= f).Settles I R := by
  intro s hs
  obtain ⟨r, u, hru, hu, hr⟩ := hx hs
  rcases r with e | a
  · exact ⟨.error e, u, bind_eq_some_iff.mpr (.inl ⟨e, hru, rfl⟩), hu, nofun⟩
  · obtain ⟨r', t, hrt, ht, hr'⟩ := hf a (hr a rfl) hu
    exact ⟨r', t, bind_eq_some_iff.mpr (.inr ⟨a, u, hru, hrt⟩), ht, hr'⟩

/-- **A body that settles in every frame of the set settles in a new one.** -/
theorem settles_withFrame {C : Set FrameId} {Q : Datum → Prop} {policy : FramePolicy}
    {outer : FrameId} {body : FrameId → Action EvalError Datum} (houter : outer ∈ C)
    (hbody : ∀ g ∈ C, (body g).Settles (Store.ClosureFreeOn C) Q) :
    (withFrame policy outer [] body).Settles (Store.ClosureFreeOn C) Q := by
  intro s hs
  have hnew : s.frames.size ∈ C := hs.mem_of_size_le _ le_rfl
  obtain ⟨r, u, hru, hu, hr⟩ := hbody _ hnew (hs.addFrame houter)
  exact ⟨r, _, withFrame_eq_some_iff.mpr ⟨u, hru, rfl⟩, hu.finish policy r, hr⟩

end Action

/-! ### One level of evaluation -/

/-- **An expression without `lambda` and without closures.** -/
structure Datum.LambdaFree (d : Datum) : Prop where
  not_mem_names : Keyword.lambda.name ∉ d.names
  holdsClosure_eq : d.holdsClosure = false

theorem Datum.LambdaFree.of_mem {es : List Datum} {s : Span} (h : (Datum.list es s).LambdaFree)
    {e : Datum} (he : e ∈ es) : e.LambdaFree where
  not_mem_names hmem := h.not_mem_names (Datum.mem_namesOfAll.mpr ⟨e, he, hmem⟩)
  holdsClosure_eq := Datum.holdsClosure_list_eq_false_iff.mp h.holdsClosure_eq e he

/-- A keyword is a name of the expression that it starts. -/
theorem Datum.mem_names_of_keyword? {d : Datum} {keyword : Keyword}
    (h : d.keyword? = some keyword) : keyword.name ∈ d.names := by
  rcases d with ⟨_ | _ | _ | name, s⟩ | _ | _ | _
  case atom.symbol =>
    obtain rfl := Keyword.ofName?_eq_some_iff.mp h
    exact List.mem_singleton_self _
  all_goals cases h

/-- An action that settles with a value that holds no closure, where no closure can be looked
up. -/
abbrev SettlesFree (C : Set FrameId) (x : Action EvalError Datum) : Prop :=
  x.Settles (Store.ClosureFreeOn C) fun v => v.holdsClosure = false

/-- The induction hypothesis on the depth: the level below settles on expressions that are nested
less than `n` deep. -/
def Evaluator.SettlesBelow (C : Set FrameId) (n : Nat) (ev : Evaluator) : Prop :=
  ∀ d, d.LambdaFree → d.nesting < n → ∀ f ∈ C, SettlesFree C (ev d f)

section Level

variable {C : Set FrameId} {n : Nat} {policy : FramePolicy} {ev : Evaluator} {f : FrameId}
  {span : Span}

theorem settles_set (x : String) {v : Datum} (hv : v.holdsClosure = false) :
    (Action.change (·.set f x v) : Action EvalError Unit).Settles (Store.ClosureFreeOn C)
      fun _ => True :=
  Action.settles_change fun _ hs => hs.set x hv

theorem evalSymbol_settles (name : String) (hf : f ∈ C) :
    SettlesFree C (evalSymbol f name span) := by
  refine Action.settles_inspect fun s hs v hv => ?_
  split at hv
  · next w hw =>
    obtain rfl := Except.ok.inj hv
    obtain ⟨g, hg, hbound⟩ := Store.exists_of_lookup?_eq_some hw
    rw [Datum.holdsClosure_withSpan]
    exact hs.closureFreeFrom hf g hg name w hbound
  · cases hv

variable (hev : ev.SettlesBelow C n) (hf : f ∈ C) {ds : List Datum}
  (hds : ∀ d ∈ ds, d.LambdaFree ∧ d.nesting < n)

include hev hf hds

theorem evalElements_settles : (evalElements ev f ds).Settles (Store.ClosureFreeOn C)
    fun vs => ∀ v ∈ vs, v.holdsClosure = false := by
  induction ds with
  | nil => exact Action.settles_pure fun v hv => absurd hv List.not_mem_nil
  | cons d ds ih =>
    obtain ⟨⟨hd, hnesting⟩, hds⟩ := List.forall_mem_cons.mp hds
    refine (hev d hd hnesting f hf).bind fun v hv => ?_
    refine (ih hds).bind fun vs hvs => ?_
    exact Action.settles_pure (List.forall_mem_cons.mpr ⟨hv, hvs⟩)

/-- No closure is applied, since no value is one. -/
theorem evalApplication_settles : SettlesFree C (evalApplication policy ev f ds span) := by
  refine (evalElements_settles hev hf hds).bind fun vs hvs => ?_
  split
  · next p hp =>
    obtain ⟨v, hv, hp⟩ := Option.bind_eq_some_iff.mp hp
    obtain ⟨q, rfl⟩ := Datum.exists_primitive_of_procedure? (hvs v (List.mem_of_mem_head? hv)) hp
    refine Action.settles_ofExcept fun w hw => ?_
    exact Primitive.holdsClosure_of_apply (fun d hd => hvs d (List.mem_of_mem_tail hd)) hw
  · exact Action.settles_pure (Datum.holdsClosure_list_eq_false_iff.mpr hvs)

/-- The bindings of a `let*`, whose values are among the operands. -/
theorem evalBindings_settles {bs : List (String × Datum)} (hbs : ∀ b ∈ bs, b.2 ∈ ds) :
    (evalBindings ev f bs).Settles (Store.ClosureFreeOn C) fun _ => True := by
  induction bs with
  | nil => exact Action.settles_pure trivial
  | cons b bs ih =>
    obtain ⟨hb, hbs⟩ := List.forall_mem_cons.mp hbs
    obtain ⟨hfree, hnesting⟩ := hds b.2 hb
    refine (hev b.2 hfree hnesting f hf).bind fun v hv => ?_
    exact (settles_set b.1 hv).bind fun _ _ => ih hbs

theorem evalForm_settles {keyword : Keyword} (hkeyword : keyword ≠ .lambda) {form : SpecialForm}
    (hform : SpecialForm.MadeOf keyword ds form) :
    SettlesFree C (evalForm policy ev f span form) := by
  cases hform with
  | @letStar pairs bindings a body hbindings =>
    obtain ⟨⟨hpairs, hnesting⟩, hrest⟩ := List.forall_mem_cons.mp hds
    obtain ⟨hbody, hbodyNesting⟩ := List.forall_mem_singleton.mp hrest
    rw [evalForm]
    refine Action.settles_withFrame hf fun g hg => ?_
    have hparts : ∀ d ∈ pairs, d.LambdaFree ∧ d.nesting < n := fun d hd =>
      ⟨hpairs.of_mem hd, (Datum.nesting_lt_of_mem hd).trans hnesting⟩
    refine (evalBindings_settles hev hg hparts
      (SpecialForm.mem_of_bindingPairs hbindings)).bind fun _ _ => ?_
    exact hev body hbody hbodyNesting g hg
  | @define name a value =>
    obtain ⟨hvalue, hnesting⟩ := List.forall_mem_singleton.mp (List.forall_mem_cons.mp hds).2
    refine (hev value hvalue hnesting f hf).bind fun v hv => ?_
    exact (settles_set name hv).bind fun _ _ => Action.settles_pure hv
  | @oneArmed c d =>
    obtain ⟨⟨hc, hcNesting⟩, hrest⟩ := List.forall_mem_cons.mp hds
    obtain ⟨hd, hdNesting⟩ := List.forall_mem_singleton.mp hrest
    refine (hev c hc hcNesting f hf).bind fun v _ => ?_
    split
    · exact hev d hd hdNesting f hf
    · exact Action.settles_pure rfl
  | @twoArmed c d e =>
    obtain ⟨⟨hc, hcNesting⟩, hrest⟩ := List.forall_mem_cons.mp hds
    obtain ⟨⟨hd, hdNesting⟩, hrest⟩ := List.forall_mem_cons.mp hrest
    obtain ⟨he, heNesting⟩ := List.forall_mem_singleton.mp hrest
    refine (hev c hc hcNesting f hf).bind fun v _ => ?_
    split
    · exact hev d hd hdNesting f hf
    · exact hev e he heNesting f hf
  | lambda _ => exact absurd rfl hkeyword
  | quote => exact Action.settles_pure (hds _ List.mem_cons_self).1.holdsClosure_eq

end Level

/-- **One level of evaluation** settles on expressions that are nested one deeper. -/
theorem evalStep_settlesBelow {C : Set FrameId} {n : Nat} {policy : FramePolicy} {ev : Evaluator}
    (hev : ev.SettlesBelow C n) : (evalStep policy ev).SettlesBelow C (n + 1) := by
  intro d hd hnesting f hf
  rcases d with ⟨_ | _ | _ | name, span⟩ | ⟨_ | ⟨d, ds⟩, span⟩ | _ | _
  case atom.symbol => exact evalSymbol_settles name hf
  case list.cons =>
    have hparts : ∀ e ∈ d :: ds, e.LambdaFree ∧ e.nesting < n := fun e he =>
      ⟨hd.of_mem he, (Datum.nesting_lt_of_mem he).trans_le (Nat.le_of_lt_succ hnesting)⟩
    rw [evalStep]
    split
    · next keyword hkeyword =>
      -- the keyword is the first name of the expression, so it is not `lambda`
      have hlambda : keyword ≠ .lambda := by
        rintro rfl
        exact (hd.of_mem List.mem_cons_self).not_mem_names (Datum.mem_names_of_keyword? hkeyword)
      refine Action.Settles.bind (Action.settles_ofExcept fun form hform =>
        SpecialForm.madeOf_of_ofOperands hform) fun form hform => ?_
      exact evalForm_settles hev hf (List.forall_mem_cons.mp hparts).2 hlambda hform
    · exact evalApplication_settles hev hf hparts
  -- Everything else evaluates to itself.
  all_goals exact Action.settles_pure hd.holdsClosure_eq

/-- **Evaluation settles on every expression nested less deep than the recursion may go.** -/
theorem eval_settlesBelow (C : Set FrameId) (policy : FramePolicy) (depth : Nat) :
    (eval policy depth).SettlesBelow C depth := by
  induction depth with
  | zero => exact fun d _ hnesting => absurd hnesting d.nesting.not_lt_zero
  | succ depth ih => exact evalStep_settlesBelow ih

/-- **Programs without `lambda` end.** Let `lambda` not occur in an expression, let the expression
hold no closure, and let no closure be bound in the chain of a frame. Then the expression ends in
this frame with a value or an error, by a recursion that goes no deeper than the expression is
nested; the value holds no closure, and still none is bound in the chain. -/
theorem lambda_free_evaluation_ends (policy : FramePolicy) {s : Store} {d : Datum} {f : FrameId}
    (hlambda : "lambda" ∉ d.names) (hclosure : d.holdsClosure = false)
    (hchain : s.ClosureFreeFrom f) :
    ∃ r t, (∀ depth, d.nesting < depth → eval policy depth d f s = some (r, t)) ∧
      (∀ v, r = .ok v → v.holdsClosure = false) ∧ t.ClosureFreeFrom f := by
  have hf : f ∈ {g | g ∈ s.chain f ∨ s.frames.size ≤ g} := .inl (Store.mem_chain_self s f)
  obtain ⟨r, t, hend, ht, hr⟩ := eval_settlesBelow _ policy (d.nesting + 1) d ⟨hlambda, hclosure⟩
    (Nat.lt_succ_self _) f hf hchain.closureFreeOn
  exact ⟨r, t, fun depth hdepth => eval_mono policy hdepth d f hend, hr, ht.closureFreeFrom hf⟩

/-- `(let* (+ list ys (+ t nil)) (define cdr (cdr ys)))` gives new meanings to the names of two
primitives. It ends in the outer one of two frames, of which the inner one binds a procedure that
calls itself for ever. -/
theorem redefined_primitives_end :
    let n := Span.none
    let loop : Datum := .closure 0 [] [.list [.symbol "loop" n] n] 1 n
    let s : Store := ⟨#[⟨none, ⟨[("cdr", .primitive .cdr n), ("list", .primitive .list n)]⟩⟩,
      ⟨some 0, ⟨[("loop", loop)]⟩⟩], 1⟩
    let d : Datum := .list [.symbol "let*" n,
      .list [.symbol "+" n, .symbol "list" n, .symbol "ys" n,
        .list [.symbol "+" n, .boolean true n, .boolean false n] n] n,
      .list [.symbol "define" n, .symbol "cdr" n, .list [.symbol "cdr" n, .symbol "ys" n] n] n] n
    "lambda" ∉ d.names ∧ d.holdsClosure = false ∧ s.ClosureFreeFrom 0 ∧
      ∃ r t, (∀ depth, 3 < depth → eval .clearFinished depth d 0 s = some (r, t)) ∧
        (∀ v, r = .ok v → v.holdsClosure = false) ∧ t.ClosureFreeFrom 0 := by
  intro n loop s d
  have hlambda : "lambda" ∉ d.names := by decide
  have hchain : s.ClosureFreeFrom 0 := by
    intro g hg x v hv
    obtain rfl : g = 0 := by simpa [Store.chain, s, Store.outer?] using hg
    obtain ⟨before, after, hentries, -⟩ := List.lookup_eq_some_iff.mp hv
    have hfree : ∀ e ∈ (s.bindings 0).entries, e.2.holdsClosure = false := by decide
    exact hfree (x, v) (by rw [hentries]; exact List.mem_append_right _ List.mem_cons_self)
  exact ⟨hlambda, rfl, hchain, lambda_free_evaluation_ends .clearFinished hlambda rfl hchain⟩

end SmallLisp
