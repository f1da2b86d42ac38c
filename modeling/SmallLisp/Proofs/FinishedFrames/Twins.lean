import SmallLisp.Proofs.Correspondence.Eval
import SmallLisp.Proofs.Correspondence.Paired
import SmallLisp.Proofs.Likeness.Exact

/-!
# Stores that differ out of reach

Two stores are twins on a set of frames (`SmallLisp.Store.Twins`) when the frames of
the set are the same in both and refer to frames of the set only. What the stores have
elsewhere does not matter, except that they have given out the same numbers.

An evaluation that clears its finished frames, in one of two twins, and an evaluation
that keeps them, in the other, come to the same result in stores that are twins again
(`SmallLisp.Store.Twins.eval`). The set grows to hold the frames that the result
refers to; frames that no older frame and no result refers to stay out of it, and only
these are cleared.

Being twins is the special case of `SmallLisp.Paired` in which nothing is renamed
(`SmallLisp.paired_clearing_iff`), so the operations on twins come from there.
-/

namespace SmallLisp

/-- **Stores that are the same on a set of frames** that nothing in it refers out of. -/
structure Store.Twins (live : Set FrameId) (s t : Store) : Prop where
  size_eq : s.frames.size = t.frames.size
  next_eq : s.nextClosure = t.nextClosure
  lt : ∀ f ∈ live, f < s.frames.size
  frame_eq : ∀ f ∈ live, s.frames[f]? = t.frames[f]?
  closed : s.Closed live

/-- The comparison of an evaluation that clears finished frames with one that keeps
them: nothing is renamed, and programs may capture frames of a given set. -/
def Comparison.clearing (live : Set FrameId) : Comparison :=
  ⟨.exact, .on live, .same, .clearFinished, .keepAll⟩

variable {live : Set FrameId} {s t : Store} {f : FrameId}

theorem clearing_ne : (Comparison.clearing live).left ≠ (Comparison.clearing live).right :=
  FramePolicy.noConfusion

/-- Links that are paired are equal, and stay within the set. -/
theorem optionRel_on_iff {o p : Option FrameId} {q : FrameId → FrameId → Prop}
    (hq : ∀ a, q a a) :
    Option.Rel (fun a b => (Pairing.on live).frames a b ∧ q a b) o p ↔
      (∀ a, o = some a → a ∈ live) ∧ o = p := by
  constructor
  · intro h
    cases h with
    | none => exact ⟨fun a ha => by simp at ha, rfl⟩
    | some h =>
      obtain ⟨⟨rfl, hmem⟩, -⟩ := h
      exact ⟨fun a ha => Option.some.inj ha ▸ hmem, rfl⟩
  · rintro ⟨hmem, rfl⟩
    cases o with
    | none => exact .none
    | some a => exact .some ⟨⟨rfl, hmem a rfl⟩, hq a⟩

/-- **Twins are paired stores of which nothing is renamed.** -/
theorem paired_clearing_iff :
    Paired (.clearing live) (.on live) s t ↔ s.Twins live t := by
  constructor
  · intro h
    -- the next frames can be paired, and nothing is renamed, so they have the same number
    have hsize : s.frames.size = t.frames.size := h.frames.ahead 0
    have hlt := fun f hf => (h.settled clearing_ne f f ⟨rfl, hf⟩).1
    have houter := fun f (hf : f ∈ live) =>
      (optionRel_on_iff fun _ => Iff.rfl).mp (h.outer f f ⟨rfl, hf⟩)
    have hbindings := fun f (hf : f ∈ live) =>
      Terms.bindingsLike_exact_on_iff.mp (h.bindings f f ⟨rfl, hf⟩)
    refine ⟨hsize, h.closures.ahead 0, hlt, fun f hf => ?_, ?_⟩
    · exact Store.getElem?_eq_of_reads (hlt f hf) (hsize ▸ hlt f hf) (houter f hf).2
        (hbindings f hf).2
    · exact ⟨fun f hf => (houter f hf).1, fun f hf => (hbindings f hf).1⟩
  · intro h
    refine ⟨?_, ?_, ?_, ?_, ?_⟩
    · refine ⟨fun _ _ hfg => hfg, fun _ _ hfg => hfg.1, ?_, ?_, fun k => by rw [h.size_eq]; rfl⟩
      · rintro a _ a' _ ⟨rfl, -⟩ ⟨rfl, -⟩
        exact Iff.rfl
      · rintro a _ ⟨rfl, ha⟩
        exact Or.inl ⟨h.lt a ha, h.size_eq ▸ h.lt a ha⟩
    · exact Tracks.eq_eq_eq_iff.mpr h.next_eq
    · rintro f _ ⟨rfl, hf⟩
      refine (optionRel_on_iff fun _ => Iff.rfl).mpr ⟨h.closed.outer_mem f hf, ?_⟩
      exact Store.outer?_eq_of_getElem?_eq (h.frame_eq f hf)
    · rintro f _ ⟨rfl, hf⟩
      refine Terms.bindingsLike_exact_on_iff.mpr ⟨h.closed.captured_mem f hf, ?_⟩
      exact Store.bindings_eq_of_getElem?_eq (h.frame_eq f hf)
    · rintro - f _ ⟨rfl, hf⟩
      exact ⟨h.lt f hf, h.size_eq ▸ h.lt f hf⟩

/-- Paired stores of which nothing is renamed are twins on the frames that are paired. -/
theorem twins_of_paired {w : Pairing} (h : Paired (.clearing live) w s t) :
    ∃ live', live ⊆ live' ∧ w = .on live' ∧ s.Twins live' t := by
  obtain ⟨live', hsub, rfl⟩ := Pairing.exists_eq_on h.base_le h.le_limit
  exact ⟨live', hsub, rfl, paired_clearing_iff.mp h.rebase⟩

/-- The frames that are there, in a store that is well formed. -/
theorem Store.WellFormed.twins (h : s.WellFormed) : s.Twins {f | f < s.frames.size} s :=
  ⟨rfl, rfl, fun _ hf => hf, fun _ _ => rfl, h.closed⟩

namespace Store.Twins

variable (h : s.Twins live t)

include h

theorem paired : Paired (.clearing live) (.on live) s t := paired_clearing_iff.mpr h

theorem outer_eq (hf : f ∈ live) : s.outer? f = t.outer? f :=
  outer?_eq_of_getElem?_eq (h.frame_eq f hf)

theorem bindings_eq (hf : f ∈ live) : s.bindings f = t.bindings f :=
  bindings_eq_of_getElem?_eq (h.frame_eq f hf)

theorem closed_right : t.Closed live where
  outer_mem f hf := h.outer_eq hf ▸ h.closed.outer_mem f hf
  captured_mem f hf := by
    rw [captured, ← h.bindings_eq hf]
    exact h.closed.captured_mem f hf

/-! ### Reading -/

theorem find?_eq (hf : f ∈ live) (x : String) : s.find? x f = t.find? x f := by
  have hbinds := fun f g hfg => (h.paired.bindings f g hfg).binds_eq x
  have hfound := find?_rel hbinds h.paired.outer ⟨rfl, hf⟩
  generalize s.find? x f = o at hfound
  generalize t.find? x f = p at hfound
  cases hfound with
  | none => rfl
  | some hab => exact congrArg some hab.1

theorem lookup?_eq (hf : f ∈ live) (x : String) :
    (∀ v, s.lookup? x f = some v → ∀ g ∈ v.captured, g ∈ live) ∧ s.lookup? x f = t.lookup? x f := by
  have hfound := h.paired.lookup? ⟨rfl, hf⟩ x
  generalize s.lookup? x f = o at hfound
  generalize t.lookup? x f = p at hfound
  cases hfound with
  | none => exact ⟨fun v hv => by simp at hv, rfl⟩
  | some hab =>
    obtain ⟨hcaptured, rfl⟩ := Terms.value_exact_on_iff.mp hab
    exact ⟨fun v hv => Option.some.inj hv ▸ hcaptured, rfl⟩

theorem namesFrom_eq (hf : f ∈ live) : s.namesFrom f = t.namesFrom f := by
  induction f using Nat.strong_induction_on with
  | _ f ih =>
    rw [namesFrom, namesFrom, ← h.outer_eq hf, ← h.bindings_eq hf]
    rcases ho : s.outer? f with - | o
    · rfl
    · dsimp only
      split
      -- the link stays within the set
      · next hlt => rw [ih o hlt (h.closed.outer_mem f hf o ho)]
      · rfl

/-! ### Changes -/

theorem set (hf : f ∈ live) (x : String) {v : Datum} (hv : ∀ g ∈ v.captured, g ∈ live) :
    (s.set f x v).Twins live (t.set f x v) :=
  paired_clearing_iff.mp (h.paired.set ⟨rfl, hf⟩ x (Terms.value_exact_on_iff.mpr ⟨hv, rfl⟩))

theorem clear (hf : f ∈ live) : (s.clear f).Twins live (t.clear f) :=
  paired_clearing_iff.mp (h.paired.clear ⟨rfl, hf⟩)

omit h in
/-- Twins with a frame more, which has the same number in both. -/
theorem exists_twins_of_next {s' t' : Store}
    (h : Paired (.clearing live) (Paired.withNextFrames (.on live) s t) s' t') :
    ∃ live', live ⊆ live' ∧ s.frames.size ∈ live' ∧ s'.Twins live' t' := by
  obtain ⟨live', hsub, heq, htwins⟩ := twins_of_paired h
  have hnew : (Pairing.on live').frames s.frames.size t.frames.size := by
    rw [← heq]
    exact Or.inr ⟨rfl, rfl⟩
  exact ⟨live', hsub, hnew.2, htwins⟩

theorem addFrame {o : Option FrameId} (ho : ∀ a, o = some a → a ∈ live) :
    ∃ live', live ⊆ live' ∧ s.frames.size ∈ live' ∧
      (s.addFrame o .empty).2.Twins live' (t.addFrame o .empty).2 := by
  have hlink : Option.Rel (Pairing.on live).frames o o := by
    cases o with
    | none => exact .none
    | some a => exact .some ⟨rfl, ho a rfl⟩
  exact exists_twins_of_next (h.paired.addFrame hlink)

theorem addRoot :
    ∃ live', live ⊆ live' ∧ s.frames.size ∈ live' ∧ s.addRoot.2.Twins live' t.addRoot.2 :=
  exists_twins_of_next (h.paired.addRoot (fun _ => trivial) rfl)

/-! ### Evaluation -/

omit h in
/-- Ends of two evaluations that are the same as far as one can get from the frames of
a set and from the result. -/
def Ends (live : Set FrameId) (o p : Except EvalError Datum × Store) : Prop :=
  o.1 = p.1 ∧ ∃ live', live ⊆ live' ∧ (∀ g ∈ capturedByResult o.1, g ∈ live') ∧
    o.2.Twins live' p.2

omit h in
theorem ends_of_endsAlike {o p : Except EvalError Datum × Store}
    (hends : (Paired.correspondence (.clearing live)).EndsAlike (.on live)
      (Paired.correspondence (.clearing live)).Value o p) : Ends live o p := by
  obtain ⟨r, s'⟩ := o
  obtain ⟨r', t'⟩ := p
  obtain ⟨w, hw, hfits, hresult⟩ := hends
  obtain ⟨live', hsub, rfl, htwins⟩ := twins_of_paired hfits
  cases hresult with
  | ok hv =>
    obtain ⟨hcaptured, rfl⟩ := Terms.value_exact_on_iff.mp (hv.mono hw le_rfl)
    exact ⟨rfl, live', hsub, hcaptured, htwins⟩
  | error he =>
    obtain ⟨hcaptured, rfl⟩ := Terms.failure_exact_on he
    exact ⟨rfl, live', hsub, fun g hg => hsub (hcaptured g hg), htwins⟩

/-- **Clearing finished frames changes nothing that can be reached**, in an evaluation
of a given depth. -/
theorem eval (depth : Nat) {d : Datum} (hf : f ∈ live) (hd : ∀ g ∈ d.captured, g ∈ live) :
    Option.Rel (Ends live) (eval .clearFinished depth d f s) (eval .keepAll depth d f t) := by
  let C := Paired.correspondence (.clearing live)
  have hcode : C.Code d d := Terms.code_exact_on_iff.mpr ⟨hd, rfl⟩
  have hframe : (Pairing.on live).frames f f := ⟨rfl, hf⟩
  exact optionRel_imp (fun _ _ => ends_of_endsAlike) (C.eval_alike depth hcode hframe h.paired)

theorem apply (depth : Nat) {p : Procedure} (hp : ∀ g ∈ p.captured, g ∈ live)
    {args : List Datum} (hargs : ∀ d ∈ args, ∀ g ∈ d.captured, g ∈ live) (span : Span) :
    Option.Rel (Ends live) (apply .clearFinished depth p args span s)
      (apply .keepAll depth p args span t) := by
  let C := Paired.correspondence (.clearing live)
  have hprocedure : C.terms.ProcedureLike C.base (.on live) p p := Terms.procedureLike_exact_on hp
  have hvalues : List.Forall₂ (C.Value (.on live)) args args :=
    List.forall₂_same.mpr fun d hd => Terms.value_exact_on_iff.mpr ⟨hargs d hd, rfl⟩
  exact optionRel_imp (fun _ _ => ends_of_endsAlike)
    (C.apply_alike depth hprocedure hvalues rfl h.paired)

end Store.Twins

end SmallLisp
