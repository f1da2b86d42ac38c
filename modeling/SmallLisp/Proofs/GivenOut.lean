import SmallLisp.Proofs.Correspondence.Eval
import SmallLisp.Proofs.Correspondence.Paired
import SmallLisp.Proofs.Likeness.Exact
import SmallLisp.Proofs.Reading
import SmallLisp.Proofs.Stock.Calls

/-!
# Identities that have been given out

A store gives out the identities of closures in order. So the closures that are bound in it
have identities below the next one (`SmallLisp.Store.IdentitiesGivenOut`), and an evaluation
of a program of which this is true as well leaves such a store, and gives such a value
(`SmallLisp.Evaluates.identitiesGivenOut`). It is true of every store that an interpreter
reaches (`SmallLisp.Reaches.identitiesGivenOut`), for what is read from a text holds no
closures at all.

A datum with such identities is like itself on the terms that only these identities are
paired (`SmallLisp.Terms.code_exact_givenOut`); and what is like anything on these terms has
only identities of pairs. So the invariant is seen by comparing an evaluation with itself.
-/

namespace SmallLisp

/-! ### The identities of a datum -/

namespace Datum

mutual

/-- **The identities of the closures of a datum**, at any depth. -/
def identities : Datum → List Nat
  | .atom _ _ => []
  | .list es _ => identitiesOfAll es
  | .primitive _ _ => []
  | .closure id _ body _ _ => id :: identitiesOfAll body

/-- The identities of the closures of several data. -/
def identitiesOfAll : List Datum → List Nat
  | [] => []
  | d :: ds => identities d ++ identitiesOfAll ds

end

theorem mem_identitiesOfAll {ds : List Datum} {i : Nat} :
    i ∈ identitiesOfAll ds ↔ ∃ d ∈ ds, i ∈ d.identities := by
  induction ds with
  | nil => simp [identitiesOfAll]
  | cons d ds ih => simp [identitiesOfAll, ih]

/-- A datum that holds no closure has no identities. -/
theorem identities_eq_nil {d : Datum} (h : d.holdsClosure = false) : d.identities = [] := by
  induction d using Datum.induction with
  | atom | primitive => rfl
  | list es s ih =>
    rw [holdsClosure_list, List.any_eq_false] at h
    refine List.eq_nil_iff_forall_not_mem.mpr fun i hi => ?_
    obtain ⟨e, he, hi⟩ := mem_identitiesOfAll.mp hi
    rw [ih e he (Bool.eq_false_iff.mpr (h e he))] at hi
    exact List.not_mem_nil hi
  | closure => cases h

end Datum

/-- **Every closure that is bound has an identity that the store has given out.** -/
def Store.IdentitiesGivenOut (s : Store) : Prop :=
  ∀ f, ∀ e ∈ (s.bindings f).entries, ∀ i ∈ e.2.identities, i < s.nextClosure

/-- Every frame stands for itself, and so does every closure with an identity below `n`. -/
def Pairing.givenOut (n : Nat) : Pairing := ⟨Eq, fun i j => i = j ∧ i < n⟩

/-- A datum whose identities have been given out is like itself. -/
theorem Terms.code_exact_givenOut {n : Nat} {d : Datum} (h : ∀ i ∈ d.identities, i < n) :
    exact.Code (.givenOut n) d d := by
  induction d using Datum.induction with
  | atom a s => exact .atom (fun _ _ => trivial) rfl
  | primitive p s => exact .primitive rfl
  | list es s ih =>
    refine .list (List.forall₂_same.mpr fun e he => ih e he fun i hi => ?_) rfl
    exact h i (Datum.mem_identitiesOfAll.mpr ⟨e, he, hi⟩)
  | closure i params body f s ih =>
    refine .closure ⟨rfl, h i List.mem_cons_self⟩ rfl (fun _ _ => trivial) ?_ rfl
    refine List.forall₂_same.mpr fun e he => ih e he fun j hj => ?_
    exact h j (List.mem_cons_of_mem _ (Datum.mem_identitiesOfAll.mpr ⟨e, he, hj⟩))

/-! ### Like data have the identities of pairs -/

/-- If every element on the left has a property by its relation to one on the right, all
elements on the left have it. -/
theorem forall_mem_of_forall₂ {α β : Type} {R : α → β → Prop} {p : α → Prop} {as : List α}
    {bs : List β} (h : List.Forall₂ R as bs) (hR : ∀ a b, R a b → p a) : ∀ a ∈ as, p a := by
  induction h with
  | nil => exact List.forall_mem_nil _
  | cons hab _ ih => exact List.forall_mem_cons.mpr ⟨hR _ _ hab, ih⟩

theorem identitiesOfAll_lt {R : Datum → Datum → Prop} {n : Nat} {ds es : List Datum}
    (h : List.Forall₂ R ds es) (hR : ∀ d e, R d e → ∀ i ∈ d.identities, i < n) :
    ∀ i ∈ Datum.identitiesOfAll ds, i < n := by
  intro i hi
  obtain ⟨d, hd, hi⟩ := Datum.mem_identitiesOfAll.mp hi
  exact forall_mem_of_forall₂ h hR d hd i hi

namespace Terms

variable {T : Terms} {P Q : Pairing} {n : Nat} {d e : Datum}

theorem Code.identities_lt (hP : ∀ i j, P.closures i j → i < n) (h : T.Code P d e) :
    ∀ i ∈ d.identities, i < n := by
  refine Code.induction ?_ ?_ ?_ ?_ h
  · intro a s t _ _
    exact List.forall_mem_nil _
  · intro ds es s t ih _
    exact identitiesOfAll_lt ih fun _ _ hlt => hlt
  · intro p s t _
    exact List.forall_mem_nil _
  · intro i j params ds es f g s t hid _ _ _ ih _
    exact List.forall_mem_cons.mpr ⟨hP i j hid, identitiesOfAll_lt ih fun _ _ hlt => hlt⟩

/-- **A value that is like another has only identities of pairs.** -/
theorem Value.identities_lt (hP : ∀ i j, P.closures i j → i < n)
    (hQ : ∀ i j, Q.closures i j → i < n) (h : T.Value P Q d e) : ∀ i ∈ d.identities, i < n := by
  refine Value.induction ?_ ?_ ?_ ?_ h
  · intro a s t _
    exact List.forall_mem_nil _
  · intro ds es s t ih _
    exact identitiesOfAll_lt ih fun _ _ hlt => hlt
  · intro p s t _
    exact List.forall_mem_nil _
  · intro i j params ds es f g s t hid _ _ hbody _
    refine List.forall_mem_cons.mpr ⟨hQ i j hid, identitiesOfAll_lt hbody ?_⟩
    exact fun _ _ hde => hde.identities_lt hP

end Terms

/-! ### Comparing evaluations from the same frames -/

/-- The comparison of two evaluations that begin with the same frames, and with the same
closures, which have identities below `n`. Identities that are given out at the same time
are related by `limit`. -/
def Comparison.fromSame (policy : FramePolicy) (n : Nat) (limit : Nat → Nat → Prop) :
    Comparison :=
  ⟨.exact, .givenOut n, ⟨Eq, limit⟩, policy, policy⟩

namespace Paired

variable {policy : FramePolicy} {limit : Nat → Nat → Prop} {w : Pairing} {s t : Store} {n : Nat}

/-- Two stores with the same frames, of which the second one may have given out more
identities. -/
theorem of_givenOut (hs : s.IdentitiesGivenOut) (hframes : t.frames = s.frames)
    (hle : s.nextClosure ≤ t.nextClosure) (hold : ∀ i < s.nextClosure, limit i i)
    (hahead : ∀ k, limit (s.nextClosure + k) (t.nextClosure + k)) :
    Paired (.fromSame policy s.nextClosure limit) (.givenOut s.nextClosure) s t where
  frames := Tracks.eq_eq_eq_iff.mpr (by rw [hframes])
  closures := by
    refine ⟨fun _ _ h => h, ?_, ?_, ?_, hahead⟩
    · rintro i _ ⟨rfl, hi⟩
      exact hold i hi
    · rintro i _ i' _ ⟨rfl, -⟩ ⟨rfl, -⟩
      exact Iff.rfl
    · rintro i _ ⟨rfl, hi⟩
      exact Or.inl ⟨hi, hi.trans_le hle⟩
  outer := by
    rintro f _ rfl
    rw [Store.outer?_eq_of_getElem?_eq (congrArg (·[f]?) hframes)]
    cases s.outer? f with
    | none => exact .none
    | some o => exact .some ⟨rfl, Iff.rfl⟩
  bindings := by
    rintro f _ rfl
    rw [Store.bindings_eq_of_getElem?_eq (congrArg (·[f]?) hframes)]
    refine List.forall₂_same.mpr fun e he => ⟨rfl, ?_⟩
    exact (Terms.code_exact_givenOut (hs f e he)).value le_rfl
  settled hne := absurd rfl hne

/-- A value that is like another has only identities that have been given out. -/
theorem identities_lt (h : Paired (.fromSame policy n limit) w s t) (hn : n ≤ s.nextClosure)
    {v v' : Datum} (hv : Terms.exact.Value (.givenOut n) w v v') :
    ∀ i ∈ v.identities, i < s.nextClosure := by
  have hbase : ∀ i j, (Pairing.givenOut n).closures i j → i < s.nextClosure :=
    fun _ _ hij => hij.2.trans_le hn
  refine hv.identities_lt hbase fun i j hij => ?_
  rcases h.closures.place i j hij with ⟨hi, -⟩ | ⟨hij, -⟩
  · exact hi
  · exact hbase i j hij

theorem identitiesGivenOut (h : Paired (.fromSame policy n limit) w s t)
    (hn : n ≤ s.nextClosure) : s.IdentitiesGivenOut := by
  intro f
  have hlike := h.bindings f f (h.frames.base_le f f rfl)
  exact forall_mem_of_forall₂ hlike fun e e' he => h.identities_lt hn he.2

end Paired

/-! ### The invariant -/

variable {policy : FramePolicy} {s t : Store} {d : Datum} {f : FrameId}

/-- **Evaluation keeps the invariant**: every closure in the store that is left, and in the
value, has an identity that has been given out. -/
theorem Evaluates.identitiesGivenOut {r : Except EvalError Datum}
    (h : Evaluates policy s d f r t) (hs : s.IdentitiesGivenOut)
    (hd : ∀ i ∈ d.identities, i < s.nextClosure) :
    t.IdentitiesGivenOut ∧ ∀ v, r = .ok v → ∀ i ∈ v.identities, i < t.nextClosure := by
  -- the evaluation is compared with itself
  let C := Paired.correspondence (.fromSame policy s.nextClosure Eq)
  have hfits : C.Fits (.givenOut s.nextClosure) s s :=
    .of_givenOut hs rfl le_rfl (fun _ _ => rfl) fun _ => rfl
  have hcode : C.Code d d := Terms.code_exact_givenOut hd
  obtain ⟨w, -, hpaired, hresult⟩ := C.evaluates_endsAlike hfits hcode (f := f) rfl h h
  have hle : s.nextClosure ≤ t.nextClosure := by
    obtain ⟨depth, h⟩ := h
    exact (eval_confined policy depth d f h).closures_le
  refine ⟨hpaired.identitiesGivenOut hle, ?_⟩
  rintro v rfl
  cases hresult with
  | ok hv => exact hpaired.identities_lt hle hv

/-- What is read holds no closures, so evaluating it keeps the invariant. -/
theorem eval_ensures_givenOut (depth : Nat) (hd : d.holdsClosure = false) :
    (eval policy depth d f).Ensures Store.IdentitiesGivenOut (fun _ => True) fun _ => True := by
  intro s r t hs h
  have hnone : ∀ i ∈ d.identities, i < s.nextClosure := by
    rw [Datum.identities_eq_nil hd]
    exact List.forall_mem_nil _
  refine ⟨(Evaluates.identitiesGivenOut ⟨depth, h⟩ hs hnone).1, ?_⟩
  cases r <;> trivial

theorem evalElements_ensures_givenOut (depth : Nat) {ds : List Datum}
    (hds : ∀ d ∈ ds, d.holdsClosure = false) :
    (evalElements (eval policy depth) f ds).Ensures Store.IdentitiesGivenOut (fun _ => True)
      fun _ => True := by
  induction ds with
  | nil => exact Action.ensures_pure trivial
  | cons d ds ih =>
    obtain ⟨hd, hds⟩ := List.forall_mem_cons.mp hds
    refine (eval_ensures_givenOut depth hd).bind fun v _ => ?_
    exact (ih hds).bind fun vs _ => Action.ensures_pure trivial

theorem Call.answer_ensures_givenOut (depth : Nat) (i : Interpreter) (c : Call) :
    (c.answer policy depth i).Ensures Store.IdentitiesGivenOut (fun _ => True) fun _ => True := by
  cases c with
  | run text =>
    have hread : Meets (fun _ => True) (fun d => d.holdsClosure = false)
        ((readFirst text).mapError Error.read) := by
      rcases h : readFirst text with e | d
      · exact trivial
      · exact holdsClosure_of_readFirst h
    have hrun : (i.run policy depth text).Ensures Store.IdentitiesGivenOut (fun _ => True)
        fun _ => True := by
      refine (Action.ensures_ofExcept hread).bind fun d hd => ?_
      exact (eval_ensures_givenOut depth hd).mapError fun _ _ => trivial
    exact hrun.bind fun v _ => Action.ensures_pure trivial
  | runAll text =>
    have hread : Meets (fun _ => True) (fun ds => ∀ d ∈ ds, d.holdsClosure = false)
        ((readProgram text).mapError Error.read) := by
      rcases h : readProgram text with e | ds
      · exact trivial
      · exact holdsClosure_of_readProgram h
    refine (Action.ensures_ofExcept hread).bind fun ds hds => ?_
    rw [Interpreter.evaluateAll_eq]
    exact (evalElements_ensures_givenOut depth hds).mapError fun _ _ => trivial

/-- **Whatever an interpreter is given to run, every closure in its store has an identity
that has been given out.** -/
theorem Reaches.identitiesGivenOut {texts : List String} (h : Reaches policy texts s) :
    s.IdentitiesGivenOut := by
  induction h with
  | new =>
    have hempty : Store.empty.IdentitiesGivenOut := by
      intro f e he
      simp only [Store.empty, Store.bindings, List.getElem?_toArray, List.getElem?_nil] at he
      cases he
    have hpaired : Paired (.fromSame policy 0 Eq) (.givenOut 0) .empty .empty :=
      .of_givenOut hempty rfl le_rfl (fun _ _ => rfl) fun _ => rfl
    exact (hpaired.addRoot (fun _ => trivial) rfl).identitiesGivenOut (Nat.zero_le _)
  | call _ h ih =>
    obtain ⟨depth, h⟩ := h
    exact (Call.answer_ensures_givenOut depth _ _ ih h).1

end SmallLisp
