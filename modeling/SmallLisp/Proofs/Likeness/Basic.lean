import Mathlib.Data.List.Forall2
import Mathlib.Order.Basic
import SmallLisp.Datum.Equality
import SmallLisp.Eval.Error

/-!
# Data that are alike

Two evaluations are compared by comparing the data that they handle. Frames and
closures of the one need not have the numbers that they have in the other: a
`SmallLisp.Pairing` says which frames, and which identities of closures, stand for
each other. Spans may differ as well, and programs may be kept to certain names; that
is what `SmallLisp.Terms` are about.

A datum is met in two roles, and alike means two things accordingly.

* **A program** (`SmallLisp.Terms.Code`) was there before the evaluation began, and
  so were the closures that it holds. They are paired by a pairing `P` that stays
  what it is.
* **A value** (`SmallLisp.Terms.Value`) may hold closures made on the way, over frames
  made on the way. They are paired by a pairing `Q` that grows. The bodies of these
  closures are programs again.

The distinction matters for errors. An error that carries a datum carries a piece of
program, so like errors (`SmallLisp.Terms.Failure`) are alike by `P` alone, however
far the evaluation has come.
-/

namespace SmallLisp

theorem optionRel_imp {α β : Type} {R S : α → β → Prop} (hRS : ∀ a b, R a b → S a b)
    {o : Option α} {p : Option β} (h : Option.Rel R o p) : Option.Rel S o p := by
  cases h with
  | some h => exact .some (hRS _ _ h)
  | none => exact .none

theorem exists_of_optionRel_left {α β : Type} {R : α → β → Prop} {o : Option α} {p : Option β}
    (h : Option.Rel R o p) {a : α} (ha : o = some a) : ∃ b, p = some b ∧ R a b := by
  subst ha
  cases h with
  | some h => exact ⟨_, rfl, h⟩

theorem exists_of_optionRel_right {α β : Type} {R : α → β → Prop} {o : Option α} {p : Option β}
    (h : Option.Rel R o p) {b : β} (hb : p = some b) : ∃ a, o = some a ∧ R a b := by
  subst hb
  cases h with
  | some h => exact ⟨_, rfl, h⟩

/-- Of two families of runs that end in step, one ends at some bound if the other does. -/
theorem exists_outcome_iff {α β γ δ : Type} {R : α × γ → β × δ → Prop} {x : Nat → Option (α × γ)}
    {y : Nat → Option (β × δ)} (h : ∀ n, Option.Rel R (x n) (y n)) :
    (∃ a c, ∃ n, x n = some (a, c)) ↔ ∃ b d, ∃ n, y n = some (b, d) := by
  constructor
  · rintro ⟨a, c, n, hx⟩
    obtain ⟨⟨b, d⟩, hy, -⟩ := exists_of_optionRel_left (h n) hx
    exact ⟨b, d, n, hy⟩
  · rintro ⟨b, d, n, hy⟩
    obtain ⟨⟨a, c⟩, hx, -⟩ := exists_of_optionRel_right (h n) hy
    exact ⟨a, c, n, hx⟩

/-- Two families of runs that end in step come to related ends, whatever the bounds at
which they end, if the second has one end only. -/
theorem outcome_rel {α β γ δ : Type} {R : α × γ → β × δ → Prop} {x : Nat → Option (α × γ)}
    {y : Nat → Option (β × δ)} (h : ∀ n, Option.Rel R (x n) (y n))
    (hunique : ∀ {b b' d d'}, (∃ n, y n = some (b, d)) → (∃ n, y n = some (b', d')) →
      b = b' ∧ d = d')
    {a : α} {b : β} {c : γ} {d : δ} (hx : ∃ n, x n = some (a, c)) (hy : ∃ n, y n = some (b, d)) :
    R (a, c) (b, d) := by
  obtain ⟨n, hx⟩ := hx
  obtain ⟨⟨b', d'⟩, hy', hrel⟩ := exists_of_optionRel_left (h n) hx
  obtain ⟨rfl, rfl⟩ := hunique hy ⟨n, hy'⟩
  exact hrel

theorem map_eq_map_of_forall₂ {α β : Type} {F : α → β} {as bs : List α}
    (h : List.Forall₂ (fun a b => F a = F b) as bs) : as.map F = bs.map F := by
  rw [← List.forall₂_eq_eq_eq, List.forall₂_map_left_iff, List.forall₂_map_right_iff]
  exact h

/-! ### Pairings and terms -/

/-- **Which frames, and which identities of closures, stand for each other.** -/
@[ext]
structure Pairing where
  /-- Frames that stand for each other. -/
  frames : FrameId → FrameId → Prop
  /-- Identities of closures that stand for each other. -/
  closures : Nat → Nat → Prop

namespace Pairing

instance : PartialOrder Pairing where
  le P Q := (∀ f g, P.frames f g → Q.frames f g) ∧ ∀ i j, P.closures i j → Q.closures i j
  le_refl _ := ⟨fun _ _ h => h, fun _ _ h => h⟩
  le_trans _ _ _ hPQ hQR :=
    ⟨fun f g h => hQR.1 f g (hPQ.1 f g h), fun i j h => hQR.2 i j (hPQ.2 i j h)⟩
  le_antisymm P Q hPQ hQP := by
    ext f g
    · exact ⟨hPQ.1 f g, hQP.1 f g⟩
    · exact ⟨hPQ.2 f g, hQP.2 f g⟩

/-- Everything stands for itself. -/
def same : Pairing := ⟨Eq, Eq⟩

/-- Nothing stands for anything. -/
def empty : Pairing := ⟨fun _ _ => False, fun _ _ => False⟩

variable {P Q : Pairing}

theorem frames_of_le (h : P ≤ Q) {f g : FrameId} (hfg : P.frames f g) : Q.frames f g := h.1 f g hfg

end Pairing

/-- **The terms on which programs are compared.** -/
structure Terms where
  /-- How the spans of data that are alike are related. -/
  span : Span → Span → Prop
  /-- The names that programs may use. -/
  name : String → Prop

namespace Terms

variable {T : Terms} {P P' Q Q' : Pairing}

/-! ### Programs -/

/-- **Programs that are alike**: they differ in spans and in the numbers of closures
and frames, as far as the terms and the pairing allow it, and use names that the
terms allow. -/
inductive Code (T : Terms) (P : Pairing) : Datum → Datum → Prop
  | atom {a : Atom} {s t : Span} (hname : ∀ x, a = .symbol x → T.name x) (hspan : T.span s t) :
    Code T P (.atom a s) (.atom a t)
  | list {ds es : List Datum} {s t : Span} (helements : List.Forall₂ (Code T P) ds es)
    (hspan : T.span s t) : Code T P (.list ds s) (.list es t)
  | primitive {p : Primitive} {s t : Span} (hspan : T.span s t) :
    Code T P (.primitive p s) (.primitive p t)
  | closure {i j : Nat} {params : List String} {ds es : List Datum} {f g : FrameId} {s t : Span}
    (hid : P.closures i j) (hframe : P.frames f g) (hparams : ∀ x ∈ params, T.name x)
    (hbody : List.Forall₂ (Code T P) ds es) (hspan : T.span s t) :
    Code T P (.closure i params ds f s) (.closure j params es g t)

/-- Induction on programs that are alike: the elements of lists and the bodies of
closures are alike one by one, and have the property one by one. -/
@[elab_as_elim]
theorem Code.induction {motive : Datum → Datum → Prop}
    (atom : ∀ {a s t}, (∀ x, a = Atom.symbol x → T.name x) → T.span s t →
      motive (.atom a s) (.atom a t))
    (list : ∀ {ds es s t}, List.Forall₂ motive ds es → T.span s t →
      motive (.list ds s) (.list es t))
    (primitive : ∀ {p s t}, T.span s t → motive (.primitive p s) (.primitive p t))
    (closure : ∀ {i j params ds es f g s t}, P.closures i j → P.frames f g →
      (∀ x ∈ params, T.name x) → List.Forall₂ (T.Code P) ds es → List.Forall₂ motive ds es →
      T.span s t → motive (.closure i params ds f s) (.closure j params es g t))
    {d e : Datum} (h : T.Code P d e) : motive d e :=
  Code.rec (motive_1 := fun d e _ => motive d e)
    (motive_2 := fun ds es _ => List.Forall₂ motive ds es)
    atom (fun _ hspan ih => list ih hspan) primitive
    (fun hid hframe hparams hbody hspan ih => closure hid hframe hparams hbody ih hspan)
    .nil (fun _ _ ihd ihds => .cons ihd ihds) h

theorem Code.mono (hP : P ≤ P') {d e : Datum} (h : T.Code P d e) : T.Code P' d e := by
  refine Code.induction ?_ ?_ ?_ ?_ h
  · exact fun hname hspan => .atom hname hspan
  · exact fun ih hspan => .list ih hspan
  · exact fun hspan => .primitive hspan
  · exact fun hid hframe hparams _ ih hspan =>
      .closure (hP.2 _ _ hid) (hP.1 _ _ hframe) hparams ih hspan

theorem Code.span {d e : Datum} (h : T.Code P d e) : T.span d.span e.span := by
  cases h <;> assumption

/-! ### Values -/

/-- **Values that are alike**: the pairing `Q` is for the closures that they hold, the
pairing `P` for the bodies of these closures. -/
inductive Value (T : Terms) (P Q : Pairing) : Datum → Datum → Prop
  | atom {a : Atom} {s t : Span} (hspan : T.span s t) : Value T P Q (.atom a s) (.atom a t)
  | list {ds es : List Datum} {s t : Span} (helements : List.Forall₂ (Value T P Q) ds es)
    (hspan : T.span s t) : Value T P Q (.list ds s) (.list es t)
  | primitive {p : Primitive} {s t : Span} (hspan : T.span s t) :
    Value T P Q (.primitive p s) (.primitive p t)
  | closure {i j : Nat} {params : List String} {ds es : List Datum} {f g : FrameId} {s t : Span}
    (hid : Q.closures i j) (hframe : Q.frames f g) (hparams : ∀ x ∈ params, T.name x)
    (hbody : List.Forall₂ (T.Code P) ds es) (hspan : T.span s t) :
    Value T P Q (.closure i params ds f s) (.closure j params es g t)

/-- Induction on values that are alike: the elements of lists have the property one
by one. -/
@[elab_as_elim]
theorem Value.induction {motive : Datum → Datum → Prop}
    (atom : ∀ {a s t}, T.span s t → motive (.atom a s) (.atom a t))
    (list : ∀ {ds es s t}, List.Forall₂ motive ds es → T.span s t →
      motive (.list ds s) (.list es t))
    (primitive : ∀ {p s t}, T.span s t → motive (.primitive p s) (.primitive p t))
    (closure : ∀ {i j params ds es f g s t}, Q.closures i j → Q.frames f g →
      (∀ x ∈ params, T.name x) → List.Forall₂ (T.Code P) ds es → T.span s t →
      motive (.closure i params ds f s) (.closure j params es g t))
    {d e : Datum} (h : T.Value P Q d e) : motive d e :=
  Value.rec (motive_1 := fun d e _ => motive d e)
    (motive_2 := fun ds es _ => List.Forall₂ motive ds es)
    atom (fun _ hspan ih => list ih hspan) primitive closure
    .nil (fun _ _ ihd ihds => .cons ihd ihds) h

theorem Value.mono (hP : P ≤ P') (hQ : Q ≤ Q') {d e : Datum} (h : T.Value P Q d e) :
    T.Value P' Q' d e := by
  refine Value.induction ?_ ?_ ?_ ?_ h
  · exact fun hspan => .atom hspan
  · exact fun ih hspan => .list ih hspan
  · exact fun hspan => .primitive hspan
  · exact fun hid hframe hparams hbody hspan =>
      .closure (hQ.2 _ _ hid) (hQ.1 _ _ hframe) hparams (hbody.imp fun _ _ hc => hc.mono hP) hspan

theorem Value.span {d e : Datum} (h : T.Value P Q d e) : T.span d.span e.span := by
  cases h <;> assumption

theorem Value.withSpan {d e : Datum} (h : T.Value P Q d e) {s t : Span} (hspan : T.span s t) :
    T.Value P Q (d.withSpan s) (e.withSpan t) := by
  cases h with
  | atom _ => exact .atom hspan
  | list helements _ => exact .list helements hspan
  | primitive _ => exact .primitive hspan
  | closure hid hframe hparams hbody _ => exact .closure hid hframe hparams hbody hspan

/-- A program that is taken as it stands is a value. -/
theorem Code.value (hPQ : P ≤ Q) {d e : Datum} (h : T.Code P d e) : T.Value P Q d e := by
  refine Code.induction ?_ ?_ ?_ ?_ h
  · exact fun _ hspan => .atom hspan
  · exact fun ih hspan => .list ih hspan
  · exact fun hspan => .primitive hspan
  · exact fun hid hframe hparams hbody _ hspan =>
      .closure (hPQ.2 _ _ hid) (hPQ.1 _ _ hframe) hparams hbody hspan

/-- Between two evaluations a value may become a program, if its names are all
right. -/
theorem Value.code (hname : ∀ x, T.name x) (hPQ : P ≤ Q) {d e : Datum} (h : T.Value P Q d e) :
    T.Code Q d e := by
  refine Value.induction ?_ ?_ ?_ ?_ h
  · exact fun hspan => .atom (fun x _ => hname x) hspan
  · exact fun ih hspan => .list ih hspan
  · exact fun hspan => .primitive hspan
  · exact fun hid hframe hparams hbody hspan =>
      .closure hid hframe hparams (hbody.imp fun _ _ hc => hc.mono hPQ) hspan

/-! ### What like values have in common -/

theorem Value.isTruthy_eq {d e : Datum} (h : T.Value P Q d e) : d.isTruthy = e.isTruthy := by
  cases h with
  | @atom a => cases a <;> rfl
  | list | primitive | closure => rfl

theorem Value.kind_eq {d e : Datum} (h : T.Value P Q d e) : d.kind = e.kind := by
  cases h with
  | @atom a => cases a <;> rfl
  | list | primitive | closure => rfl

theorem Value.holdsClosure_eq {d e : Datum} (h : T.Value P Q d e) :
    d.holdsClosure = e.holdsClosure := by
  refine Value.induction ?_ ?_ ?_ ?_ h
  · exact fun _ => rfl
  · intro ds es s t ih _
    rw [Datum.holdsClosure_list, Datum.holdsClosure_list]
    induction ih with
    | nil => rfl
    | cons hd _ ih => rw [List.any_cons, List.any_cons, hd, ih]
  · exact fun _ => rfl
  · exact fun _ _ _ _ _ => rfl

/-- **Like values are printed alike**: neither spans nor numbers of frames and closures
are printed. -/
theorem Value.render_eq {d e : Datum} (h : T.Value P Q d e) : d.render = e.render := by
  refine Value.induction ?_ ?_ ?_ ?_ h
  · exact fun _ => rfl
  · intro ds es s t ih _
    rw [Datum.render, Datum.render]
    congr 2
    induction ih with
    | nil => rfl
    | cons hd hds ih =>
      cases hds with
      | nil => exact hd
      | cons => rw [Datum.renderAll, Datum.renderAll, hd, ih]
  · exact fun _ => rfl
  · exact fun _ _ _ _ _ => rfl

/-- Values without closures are alike whatever stands for what. -/
theorem Value.of_not_holdsClosure {d e : Datum} (h : T.Value P Q d e)
    (hd : d.holdsClosure = false) : T.Value P Q' d e := by
  revert hd
  refine Value.induction ?_ ?_ ?_ ?_ h
  · exact fun hspan _ => .atom hspan
  · intro ds es s t ih hspan hd
    refine .list ?_ hspan
    rw [Datum.holdsClosure_list, List.any_eq_false] at hd
    induction ih with
    | nil => exact .nil
    | cons hde _ ih =>
      have hhead := hde (Bool.eq_false_iff.mpr (hd _ List.mem_cons_self))
      exact .cons hhead (ih fun x hx => hd x (List.mem_cons_of_mem _ hx))
  · exact fun hspan _ => .primitive hspan
  · exact fun _ _ _ _ _ hd => absurd hd (by simp [Datum.holdsClosure])

/-- **The equality of the language does not tell like values apart**, if no closure
stands for two. -/
theorem Value.sameValue_eq
    (hinj : ∀ i j i' j', Q.closures i j → Q.closures i' j' → (i = i' ↔ j = j'))
    {d e : Datum} (h : T.Value P Q d e) :
    ∀ d' e', T.Value P Q d' e' → d.sameValue d' = e.sameValue e' := by
  refine Value.induction ?_ ?_ ?_ ?_ h
  · intro a s t _ d' e' h'
    cases h' <;> rfl
  · intro ds es s t ih _ d' e' h'
    cases h' with
    -- the two lists go on together, element by element, or one of them ends on both sides
    | @list ds' es' _ _ helements _ =>
      change Datum.sameValues ds ds' = Datum.sameValues es es'
      induction ih generalizing ds' es' with
      | nil => cases helements <;> rfl
      | cons hd _ ih =>
        cases helements with
        | nil => rfl
        | cons hd' helements =>
          rw [Datum.sameValues, Datum.sameValues, hd _ _ hd', ih helements]
    | atom | primitive | closure => rfl
  · intro p s t _ d' e' h'
    cases h' <;> rfl
  · intro i j params ds es f g s t hid _ _ _ _ d' e' h'
    -- closures are the same if they have the same identity: this is where `hinj` is needed
    cases h' with
    | @closure i' j' _ _ _ _ _ _ _ hid' =>
      exact Bool.eq_iff_iff.mpr (by simpa [Datum.sameValue] using hinj i j i' j' hid hid')
    | atom | list | primitive => rfl

/-! ### Procedures -/

/-- Procedures that are alike. -/
inductive ProcedureLike (T : Terms) (P Q : Pairing) : Procedure → Procedure → Prop
  | primitive (p : Primitive) : ProcedureLike T P Q (.primitive p) (.primitive p)
  | closure {c c' : Closure} (hid : Q.closures c.id c'.id) (hframe : Q.frames c.frame c'.frame)
    (hparams : c'.params = c.params) (hnames : ∀ x ∈ c.params, T.name x)
    (hbody : List.Forall₂ (T.Code P) c.body c'.body) :
    ProcedureLike T P Q (.closure c) (.closure c')

theorem Value.procedure? {d e : Datum} (h : T.Value P Q d e) :
    Option.Rel (T.ProcedureLike P Q) d.procedure? e.procedure? := by
  cases h with
  | @atom a =>
    cases a <;> exact .none
  | list => exact .none
  | primitive => exact .some (.primitive _)
  | closure hid hframe hparams hbody _ => exact .some (.closure hid hframe rfl hparams hbody)

/-! ### Results -/

/-- **Errors that are alike**: for the same cause, with like data. -/
inductive Failure (T : Terms) (P : Pairing) : EvalError → EvalError → Prop
  | unbound {x : String} {s t : Span} (hspan : T.span s t) :
    Failure T P (.unbound x s) (.unbound x t)
  | application {fault : ApplyFault} {s t : Span} (hspan : T.span s t) :
    Failure T P (.application fault s) (.application fault t)
  | notSymbol {d e : Datum} (hfound : T.Code P d e) : Failure T P (.notSymbol d) (.notSymbol e)
  | malformed {fault : FormFault} {s t : Span} (hspan : T.span s t) :
    Failure T P (.malformed fault s) (.malformed fault t)

theorem Failure.span {e e' : EvalError} (h : T.Failure P e e') : T.span e.span e'.span := by
  cases h with
  | notSymbol hfound => exact hfound.span
  | unbound hspan | application hspan | malformed hspan => exact hspan

/-- Errors that are alike have the same text. -/
theorem Failure.message_eq {e e' : EvalError} (h : T.Failure P e e') : e.message = e'.message := by
  rw [EvalError.message.eq_def, EvalError.message.eq_def]
  cases h with
  | notSymbol hfound => simp only [(hfound.value le_rfl).render_eq]
  | unbound | application | malformed => with_reducible rfl

/-- **Results that are alike**: both are errors, or both are values that a given
relation holds between. -/
inductive Outcome {α β : Type} (T : Terms) (P : Pairing) (R : α → β → Prop) :
    Except EvalError α → Except EvalError β → Prop
  | ok {a : α} {b : β} (h : R a b) : Outcome T P R (.ok a) (.ok b)
  | error {e e' : EvalError} (h : T.Failure P e e') : Outcome T P R (.error e) (.error e')

namespace Outcome

variable {α β γ δ : Type} {R S : α → β → Prop} {R' : γ → δ → Prop}

theorem imp {r : Except EvalError α} {r' : Except EvalError β} (h : T.Outcome P R r r')
    (hRS : ∀ a b, R a b → S a b) : T.Outcome P S r r' := by
  cases h with
  | ok h => exact .ok (hRS _ _ h)
  | error h => exact .error h

theorem bind {r : Except EvalError α} {r' : Except EvalError β} (h : T.Outcome P R r r')
    {f : α → Except EvalError γ} {g : β → Except EvalError δ}
    (hfg : ∀ a b, R a b → T.Outcome P R' (f a) (g b)) : T.Outcome P R' (r >>= f) (r' >>= g) := by
  cases h with
  | ok h => exact hfg _ _ h
  | error h => exact .error h

theorem map {r : Except EvalError α} {r' : Except EvalError β} (h : T.Outcome P R r r')
    {f : α → γ} {g : β → δ} (hfg : ∀ a b, R a b → R' (f a) (g b)) :
    T.Outcome P R' (r.map f) (r'.map g) := by
  cases h with
  | ok h => exact .ok (hfg _ _ h)
  | error h => exact .error h

end Outcome

end Terms

end SmallLisp
