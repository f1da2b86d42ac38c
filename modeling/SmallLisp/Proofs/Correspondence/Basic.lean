import SmallLisp.Proofs.Eval.WriteFrame
import SmallLisp.Proofs.Likeness.Basic

/-!
# Two evaluations side by side

A `SmallLisp.Correspondence` says when two stores fit together under a pairing, and
that each operation an evaluation makes on the one store keeps them fitting when it
is made on the other as well: looking a name up, binding it, making a frame or a
closure, finishing a frame. It knows nothing of evaluation, only of stores.

`SmallLisp.Correspondence.Alike` is what two actions then have in common. From
stores that fit, either neither of them ends, or both do, with like results, in
stores that fit again under a pairing with more pairs. There is one rule for each way
to make an action of others; the rules are all that is needed to go through an
evaluator.

A finished frame is where the two stores may part: the left one may be cleared while
the right one is kept. The law `SmallLisp.Correspondence.finish` is told how the
stores looked before the frame was made, and that nothing but new frames was written
since. So it may forget the pairs that were added inside.
-/

namespace SmallLisp

/-- **When two stores fit together**, and that the operations of an evaluation keep
them so. -/
structure Correspondence where
  /-- On what terms data are alike. -/
  terms : Terms
  /-- What stands for what in the programs that are evaluated. -/
  base : Pairing
  /-- The policy of the evaluation on the left. -/
  left : FramePolicy
  /-- The policy of the evaluation on the right. -/
  right : FramePolicy
  /-- The stores fit together, with the given pairs standing for each other. -/
  Fits : Pairing → Store → Store → Prop
  base_le {w : Pairing} {s t : Store} : Fits w s t → base ≤ w
  closures_inj {w : Pairing} {s t : Store} : Fits w s t →
    ∀ i j i' j', w.closures i j → w.closures i' j' → (i = i' ↔ j = j')
  lookup {w : Pairing} {s t : Store} {f g : FrameId} {x : String} {a b : Span} :
    Fits w s t → w.frames f g → terms.name x → terms.span a b →
    Option.Rel (fun v v' => terms.Value base w (v.withSpan a) (v'.withSpan b))
      (s.lookup? x f) (t.lookup? x g)
  set {w : Pairing} {s t : Store} {f g : FrameId} {x : String} {v v' : Datum} :
    Fits w s t → w.frames f g → terms.name x → terms.Value base w v v' →
    Fits w (s.set f x v) (t.set g x v')
  addFrame {w : Pairing} {s t : Store} {f g : FrameId} : Fits w s t → w.frames f g →
    ∃ w', w ≤ w' ∧ w'.frames s.frames.size t.frames.size ∧
      Fits w' (s.addFrame (some f) .empty).2 (t.addFrame (some g) .empty).2
  addClosure {w : Pairing} {s t : Store} : Fits w s t →
    ∃ w', w ≤ w' ∧ w'.closures s.nextClosure t.nextClosure ∧
      Fits w' s.addClosure.2 t.addClosure.2
  finish {w w' : Pairing} {s t s' t' : Store} {r r' : Except EvalError Datum} :
    Fits w s t → w ≤ w' → w'.frames s.frames.size t.frames.size → Fits w' s' t' →
    s.Extends s' → t.Extends t' → terms.Outcome base (terms.Value base w') r r' →
    ∃ w'', w ≤ w'' ∧
      Fits w'' (left.finish s.frames.size r s') (right.finish t.frames.size r' t') ∧
      terms.Outcome base (terms.Value base w'') r r'

namespace Correspondence

variable (C : Correspondence) {α β γ δ : Type}

/-- Values that are alike under a pairing. -/
abbrev Value (w : Pairing) : Datum → Datum → Prop := C.terms.Value C.base w

/-- Programs that are alike. -/
abbrev Code : Datum → Datum → Prop := C.terms.Code C.base

/-- Two ends that are alike: results that are alike, in stores that fit under a pairing
with more pairs than `w`. -/
def EndsAlike (w : Pairing) (R : Pairing → α → β → Prop) (o : Except EvalError α × Store)
    (p : Except EvalError β × Store) : Prop :=
  ∃ w', w ≤ w' ∧ C.Fits w' o.2 p.2 ∧ C.terms.Outcome C.base (R w') o.1 p.1

/-- **Two actions that are alike**: from stores that fit, either neither of them ends,
or both do, and their ends are alike. -/
def Alike (w : Pairing) (R : Pairing → α → β → Prop) (x : Action EvalError α)
    (y : Action EvalError β) : Prop :=
  ∀ ⦃s t⦄, C.Fits w s t → Option.Rel (C.EndsAlike w R) (x s) (y t)

variable {C} {w : Pairing} {R : Pairing → α → β → Prop}

theorem EndsAlike.of_le {w' : Pairing} (hw : w ≤ w') {o : Except EvalError α × Store}
    {p : Except EvalError β × Store} (h : C.EndsAlike w' R o p) : C.EndsAlike w R o p := by
  obtain ⟨w'', hw', hfits, hresult⟩ := h
  exact ⟨w'', hw.trans hw', hfits, hresult⟩

/-- What is alike in programs is alike under every pairing that stores fit under. -/
theorem alike_of_base_le {x : Action EvalError α} {y : Action EvalError β}
    (h : C.base ≤ w → C.Alike w R x y) : C.Alike w R x y :=
  fun _ _ hfits => h (C.base_le hfits) hfits

/-! ### Actions that do not change the store -/

theorem alike_inspect {F : Store → Except EvalError α} {G : Store → Except EvalError β}
    (h : ∀ s t, C.Fits w s t → C.terms.Outcome C.base (R w) (F s) (G t)) :
    C.Alike w R (Action.inspect F) (Action.inspect G) :=
  fun s t hfits => .some ⟨w, le_rfl, hfits, h s t hfits⟩

theorem alike_ofExcept {r : Except EvalError α} {r' : Except EvalError β}
    (h : C.terms.Outcome C.base (R w) r r') :
    C.Alike w R (Action.ofExcept r) (Action.ofExcept r') :=
  alike_inspect fun _ _ _ => h

theorem alike_pure {a : α} {b : β} (h : R w a b) : C.Alike w R (pure a) (pure b) :=
  alike_ofExcept (.ok h)

theorem alike_fail {e e' : EvalError} (h : C.terms.Failure C.base e e') :
    C.Alike w R (Action.fail e) (Action.fail e') :=
  alike_ofExcept (.error h)

/-! ### One action after the other -/

/-- The second actions run under a pairing that may have more pairs than the one that
the first actions started with. -/
theorem Alike.bind {R' : Pairing → γ → δ → Prop} {x : Action EvalError α}
    {y : Action EvalError β} {F : α → Action EvalError γ} {G : β → Action EvalError δ}
    (hxy : C.Alike w R x y)
    (hFG : ∀ w', w ≤ w' → ∀ a b, R w' a b → C.Alike w' R' (F a) (G b)) :
    C.Alike w R' (x >>= F) (y >>= G) := by
  intro s t hfits
  rw [Action.bind_apply, Action.bind_apply]
  have hfirst := hxy hfits
  generalize x s = o at hfirst
  generalize y t = p at hfirst
  cases hfirst with
  | none => exact .none
  | @some o p h =>
    obtain ⟨r, s'⟩ := o
    obtain ⟨r', t'⟩ := p
    obtain ⟨w', hw, hfits', hresult⟩ := h
    cases hresult with
    | error h => exact .some ⟨w', hw, hfits', .error h⟩
    | ok h =>
      have hnext := hFG w' hw _ _ h hfits'
      exact optionRel_imp (fun _ _ hends => hends.of_le hw) hnext

/-! ### Actions that change the store -/

/-- What a change of the store gives: nothing. -/
abbrev Nothing : Pairing → Unit → Unit → Prop := fun _ _ _ => True

theorem alike_set {f g : FrameId} {x : String} {v v' : Datum} (hfg : w.frames f g)
    (hx : C.terms.name x) (hv : C.Value w v v') :
    C.Alike w Nothing (Action.change (·.set f x v)) (Action.change (·.set g x v')) :=
  fun _ _ hfits => .some ⟨w, le_rfl, C.set hfits hfg hx hv, .ok trivial⟩

theorem alike_addClosure :
    C.Alike w (fun w' i j => w'.closures i j) (Action.step Store.addClosure)
      (Action.step Store.addClosure) := by
  intro s t hfits
  obtain ⟨w', hw, hnew, hfits'⟩ := C.addClosure hfits
  exact .some ⟨w', hw, hfits', .ok hnew⟩

/-- Entries of a frame that are alike: the same name, bound to like values. -/
structure EntryLike (C : Correspondence) (w : Pairing) (e e' : String × Datum) : Prop where
  name_eq : e'.1 = e.1
  allowed : C.terms.name e.1
  value : C.Value w e.2 e'.2

theorem entryLike_zip {names : List String} (hnames : ∀ x ∈ names, C.terms.name x)
    {vs vs' : List Datum} (hvs : List.Forall₂ (C.Value w) vs vs') :
    List.Forall₂ (C.EntryLike w) (names.zip vs) (names.zip vs') := by
  induction hvs generalizing names with
  | nil =>
    rw [List.zip_nil_right]
    exact .nil
  | cons hv _ ih =>
    cases names with
    | nil => exact .nil
    | cons x names =>
      obtain ⟨hx, hnames⟩ := List.forall_mem_cons.mp hnames
      exact .cons ⟨rfl, hx, hv⟩ (ih hnames)

theorem fits_setAll {s t : Store} {f g : FrameId} {es es' : List (String × Datum)}
    (hfits : C.Fits w s t) (hfg : w.frames f g) (hes : List.Forall₂ (C.EntryLike w) es es') :
    C.Fits w (s.setAll f es) (t.setAll g es') := by
  induction hes generalizing s t with
  | nil => exact hfits
  | @cons e e' es es' he _ ih =>
    have hnext : C.Fits w (s.set f e.1 e.2) (t.set g e'.1 e'.2) := by
      rw [he.name_eq]
      exact C.set hfits hfg he.allowed he.value
    exact ih hnext

/-- **Bodies that are alike are alike in a new frame**, if they write no frame but
their own. -/
theorem alike_withFrame {f g : FrameId} {es es' : List (String × Datum)}
    {body body' : FrameId → Action EvalError Datum} (hfg : w.frames f g)
    (hes : List.Forall₂ (C.EntryLike w) es es')
    (hbody : ∀ w', w ≤ w' → ∀ f' g', w'.frames f' g' →
      C.Alike w' C.Value (body f') (body' g'))
    (hleft : ∀ f', (body f').Keeps (Store.Changes f' Set.univ))
    (hright : ∀ g', (body' g').Keeps (Store.Changes g' Set.univ)) :
    C.Alike w C.Value (withFrame C.left f es body) (withFrame C.right g es' body') := by
  intro s t hfits
  -- the new frames stand for each other, and get like entries
  obtain ⟨w₁, hw₁, hnew, hfits₁⟩ := C.addFrame hfits hfg
  have hentries : List.Forall₂ (C.EntryLike w₁) es es' :=
    hes.imp fun _ _ he => ⟨he.name_eq, he.allowed, he.value.mono le_rfl hw₁⟩
  have hstart := fits_setAll hfits₁ hnew hentries
  have hrun := hbody w₁ hw₁ _ _ hnew hstart
  rw [withFrame_apply, withFrame_apply]
  rcases hl : body s.frames.size _ with _ | ⟨r, s₂⟩ <;>
    rcases hr : body' t.frames.size _ with _ | ⟨r', t₂⟩ <;> rw [hl, hr] at hrun
  · exact .none
  · cases hrun
  · cases hrun
  · cases hrun with
    | some hends =>
      -- the frames are finished in view of `s` and `t`, the stores that they were made in
      obtain ⟨w₂, hw₂, hfits₂, hresult⟩ := hends
      have hnew₂ := Pairing.frames_of_le hw₂ hnew
      obtain ⟨w₃, hw₃, hfits₃, hresult₃⟩ := C.finish hfits (hw₁.trans hw₂) hnew₂ hfits₂
        (extends_of_body hleft hl) (extends_of_body hright hr) hresult
      exact .some ⟨w₃, hw₃, hfits₃, hresult₃⟩

end Correspondence

end SmallLisp
