import SmallLisp.Proofs.Correspondence.Basic
import SmallLisp.Proofs.Likeness.Bindings

/-!
# Stores with paired frames

The correspondence that is used throughout: a pairing of frames and closures under
which the paired frames of two stores have paired links and like bindings
(`SmallLisp.Paired`). Frames that are in no pair may hold anything.

Numbers are given out in order, and both stores give out a number at the same time.
`SmallLisp.Tracks` is what this comes to for one kind of number: no number is in two
pairs, every pair lies between two given pairings `base` and `limit`, and the pairs to
come will as well. A number that has not been given out is paired only if `base` says
so, and then with a number that the other store gives out at the same time.

* With `base` and `limit` both the identity, nothing is renamed and everything is
  paired.
* With `limit` the identity, nothing is renamed, and what is paired is what can still be
  reached.
* With a smaller `base`, frames and closures may have other numbers on either side.

If the two evaluations finish their frames by different policies, the pairs made inside
a finished frame are forgotten, unless the result holds a closure
(`SmallLisp.Paired.finish`): no frame that was there before refers to the frames made
since, and neither does the result.
-/

namespace SmallLisp

/-! ### Numbers given out in step -/

/-- **Pairs of numbers, of which the first `m` and the first `n` have been given
out.** -/
structure Tracks (base limit R : Nat → Nat → Prop) (m n : Nat) : Prop where
  base_le : ∀ a b, base a b → R a b
  le_limit : ∀ a b, R a b → limit a b
  /-- No number is in two pairs. -/
  inj : ∀ a b a' b', R a b → R a' b' → (a = a' ↔ b = b')
  /-- Both numbers of a pair have been given out, or will be at the same time. -/
  place : ∀ a b, R a b → (a < m ∧ b < n) ∨ (base a b ∧ ∃ k, a = m + k ∧ b = n + k)
  /-- Numbers given out at the same time can be paired. -/
  ahead : ∀ k, limit (m + k) (n + k)

/-- One more pair. -/
def addPair (R : Nat → Nat → Prop) (m n : Nat) : Nat → Nat → Prop :=
  fun a b => R a b ∨ (a = m ∧ b = n)

namespace Tracks

variable {base limit R : Nat → Nat → Prop} {m n : Nat}

/-- Either both numbers of a pair have been given out, or neither has. -/
theorem lt_iff (h : Tracks base limit R m n) {a b : Nat} (hab : R a b) : a < m ↔ b < n := by
  rcases h.place a b hab with ⟨ha, hb⟩ | ⟨-, k, rfl, rfl⟩
  · exact iff_of_true ha hb
  · omega

/-- The next two numbers are paired with each other, if at all. -/
theorem eq_iff (h : Tracks base limit R m n) {a b : Nat} (hab : R a b) : a = m ↔ b = n := by
  rcases h.place a b hab with ⟨ha, hb⟩ | ⟨-, k, rfl, rfl⟩
  · exact iff_of_false ha.ne hb.ne
  · omega

/-- If nothing is renamed and everything is paired, only the counts matter. -/
theorem eq_eq_eq_iff {m n : Nat} : Tracks Eq Eq Eq m n ↔ m = n := by
  constructor
  · intro h
    -- the smaller count would be a number given out on one side only
    have hlt : ∀ a, a < m ↔ a < n := fun _ => h.lt_iff rfl
    exact Nat.le_antisymm (Nat.le_of_not_lt fun hn => Nat.lt_irrefl _ ((hlt n).mp hn))
      (Nat.le_of_not_lt fun hm => Nat.lt_irrefl _ ((hlt m).mpr hm))
  · rintro rfl
    refine ⟨fun _ _ h => h, fun _ _ h => h, ?_, ?_, fun _ => rfl⟩
    · rintro a _ a' _ rfl rfl
      exact Iff.rfl
    · rintro a _ rfl
      rcases Nat.lt_or_ge a m with ha | ha
      · exact Or.inl ⟨ha, ha⟩
      · exact Or.inr ⟨rfl, a - m, by omega, by omega⟩

/-- Giving out a number on both sides, and pairing the two. -/
theorem add (h : Tracks base limit R m n) :
    Tracks base limit (addPair R m n) (m + 1) (n + 1) where
  base_le a b hab := Or.inl (h.base_le a b hab)
  le_limit := by
    rintro a b (hab | ⟨rfl, rfl⟩)
    · exact h.le_limit a b hab
    · exact h.ahead 0
  inj := by
    rintro a b a' b' (hab | ⟨rfl, rfl⟩) (hab' | ⟨rfl, rfl⟩)
    · exact h.inj a b a' b' hab hab'
    -- an older pair has neither of the new numbers
    · exact h.eq_iff hab
    · rw [eq_comm, h.eq_iff hab', eq_comm]
    · exact iff_of_true rfl rfl
  place := by
    rintro a b (hab | ⟨rfl, rfl⟩)
    · rcases h.place a b hab with ⟨ha, hb⟩ | ⟨hbase, k, rfl, rfl⟩
      · exact Or.inl ⟨by omega, by omega⟩
      -- a pair that is still ahead has come one closer, or is given out now
      · cases k with
        | zero => exact Or.inl ⟨by omega, by omega⟩
        | succ k => exact Or.inr ⟨hbase, k, by omega, by omega⟩
    · exact Or.inl ⟨by omega, by omega⟩
  ahead k := by
    have := h.ahead (k + 1)
    rwa [show m + (k + 1) = m + 1 + k by omega, show n + (k + 1) = n + 1 + k by omega] at this

/-- The pair that was added is the only one of its two numbers. -/
theorem add_eq_iff (h : Tracks base limit R m n) {a b : Nat} (hab : addPair R m n a b) :
    a = m ↔ b = n := by
  rcases hab with hab | ⟨rfl, rfl⟩
  · exact h.eq_iff hab
  · exact iff_of_true rfl rfl

/-- Forgetting pairs that are not in `base`. -/
theorem restrict (h : Tracks base limit R m n) {S : Nat → Nat → Prop}
    (hbase : ∀ a b, base a b → S a b) (hsub : ∀ a b, S a b → R a b) :
    Tracks base limit S m n where
  base_le := hbase
  le_limit a b hab := h.le_limit a b (hsub a b hab)
  inj a b a' b' hab hab' := h.inj a b a' b' (hsub a b hab) (hsub a' b' hab')
  place a b hab := h.place a b (hsub a b hab)
  ahead := h.ahead

/-- What has been paired so far as the new base. -/
theorem rebase (h : Tracks base limit R m n) : Tracks R limit R m n where
  base_le _ _ hab := hab
  le_limit := h.le_limit
  inj := h.inj
  place a b hab := by
    rcases h.place a b hab with hlt | ⟨-, hk⟩
    · exact Or.inl hlt
    · exact Or.inr ⟨hab, hk⟩
  ahead := h.ahead

/-- If `base` has only numbers that have been given out, so have all pairs. -/
theorem lt_of_base_lt (h : Tracks base limit R m n)
    (hbase : ∀ a b, base a b → a < m ∧ b < n) {a b : Nat} (hab : R a b) : a < m ∧ b < n := by
  rcases h.place a b hab with hlt | ⟨hab, -⟩
  · exact hlt
  · exact hbase a b hab

end Tracks

/-! ### Paired frames -/

/-- What two evaluations are compared by: the terms for their data, the pairings that
all pairs lie between, and the two policies. -/
structure Comparison where
  terms : Terms
  base : Pairing
  limit : Pairing
  left : FramePolicy
  right : FramePolicy

/-- **Stores whose paired frames are alike.** -/
structure Paired (K : Comparison) (w : Pairing) (s t : Store) : Prop where
  frames : Tracks K.base.frames K.limit.frames w.frames s.frames.size t.frames.size
  closures : Tracks K.base.closures K.limit.closures w.closures s.nextClosure t.nextClosure
  /-- Paired frames have paired links, and agree on whether these go to earlier
  frames. -/
  outer : ∀ f g, w.frames f g →
    Option.Rel (fun o p => w.frames o p ∧ (o < f ↔ p < g)) (s.outer? f) (t.outer? g)
  /-- Paired frames have like bindings. -/
  bindings : ∀ f g, w.frames f g →
    K.terms.BindingsLike K.base w (s.bindings f) (t.bindings g)
  /-- If the policies differ, only frames that are there are paired. -/
  settled : K.left ≠ K.right → ∀ f g, K.base.frames f g → f < s.frames.size ∧ g < t.frames.size

namespace Paired

variable {K : Comparison} {w w' : Pairing} {s t s' t' : Store} {f g : FrameId}

theorem base_le (h : Paired K w s t) : K.base ≤ w := ⟨h.frames.base_le, h.closures.base_le⟩

theorem le_limit (h : Paired K w s t) : w ≤ K.limit := ⟨h.frames.le_limit, h.closures.le_limit⟩

theorem lookup? (h : Paired K w s t) (hfg : w.frames f g) (x : String) :
    Option.Rel (K.terms.Value K.base w) (s.lookup? x f) (t.lookup? x g) :=
  Store.lookup?_rel h.bindings h.outer hfg

/-! ### Operations -/

/-- Changing the bindings of paired frames in like ways. -/
theorem modify (h : Paired K w s t) (hfg : w.frames f g) {F G : Bindings → Bindings}
    (hFG : ∀ b c, K.terms.BindingsLike K.base w b c → K.terms.BindingsLike K.base w (F b) (G c)) :
    Paired K w (s.modify f F) (t.modify g G) where
  frames := by
    rw [Store.size_modify, Store.size_modify]
    exact h.frames
  closures := h.closures
  outer f' g' hfg' := by
    rw [Store.outer?_modify, Store.outer?_modify]
    exact h.outer f' g' hfg'
  bindings f' g' hfg' := by
    -- no frame is in two pairs: the frames are changed on both sides or on neither
    have hiff : (f = f' ∧ f < s.frames.size) ↔ (g = g' ∧ g < t.frames.size) :=
      and_congr (h.frames.inj f g f' g' hfg hfg') (h.frames.lt_iff hfg)
    rw [Store.bindings_modify_eq, Store.bindings_modify_eq]
    simp only [← hiff]
    split
    · exact hFG _ _ (h.bindings f' g' hfg')
    · exact h.bindings f' g' hfg'
  settled hne f' g' hfg' := by
    rw [Store.size_modify, Store.size_modify]
    exact h.settled hne f' g' hfg'

theorem set (h : Paired K w s t) (hfg : w.frames f g) (x : String) {v v' : Datum}
    (hv : K.terms.Value K.base w v v') : Paired K w (s.set f x v) (t.set g x v') :=
  h.modify hfg fun _ _ hbc => hbc.insert x hv

theorem clear (h : Paired K w s t) (hfg : w.frames f g) : Paired K w (s.clear f) (t.clear g) :=
  h.modify hfg fun _ _ _ => .empty

/-- The pairing with the next frames of two stores paired. -/
def withNextFrames (w : Pairing) (s t : Store) : Pairing :=
  ⟨addPair w.frames s.frames.size t.frames.size, w.closures⟩

/-- The pairing with the next closures of two stores paired. -/
def withNextClosures (w : Pairing) (s t : Store) : Pairing :=
  ⟨w.frames, addPair w.closures s.nextClosure t.nextClosure⟩

theorem le_withNextFrames (w : Pairing) (s t : Store) : w ≤ withNextFrames w s t :=
  ⟨fun _ _ hfg => Or.inl hfg, fun _ _ hij => hij⟩

theorem le_withNextClosures (w : Pairing) (s t : Store) : w ≤ withNextClosures w s t :=
  ⟨fun _ _ hfg => hfg, fun _ _ hij => Or.inl hij⟩

theorem addFrame (h : Paired K w s t) {o p : Option FrameId} (hop : Option.Rel w.frames o p) :
    Paired K (withNextFrames w s t) (s.addFrame o .empty).2 (t.addFrame p .empty).2 where
  frames := by
    rw [Store.size_addFrame, Store.size_addFrame]
    exact h.frames.add
  closures := h.closures
  outer f g hfg := by
    have hiff : f = s.frames.size ↔ g = t.frames.size := h.frames.add_eq_iff hfg
    rw [Store.outer?_addFrame, Store.outer?_addFrame]
    simp only [← hiff]
    split
    · next hf =>
      -- The new frames: their links were given, and go to frames of either kind.
      obtain rfl := hf
      obtain rfl := hiff.mp rfl
      exact optionRel_imp (fun a b hab => ⟨Or.inl hab, h.frames.lt_iff hab⟩) hop
    · next hf =>
      rcases hfg with hfg | ⟨rfl, -⟩
      · exact optionRel_imp (fun a b hab => ⟨Or.inl hab.1, hab.2⟩) (h.outer f g hfg)
      · exact absurd rfl hf
  bindings f g hfg := by
    have hiff : f = s.frames.size ↔ g = t.frames.size := h.frames.add_eq_iff hfg
    rw [Store.bindings_addFrame, Store.bindings_addFrame]
    simp only [← hiff]
    split
    · exact .empty
    · next hf =>
      rcases hfg with hfg | ⟨rfl, -⟩
      · exact (h.bindings f g hfg).mono le_rfl (le_withNextFrames w s t)
      · exact absurd rfl hf
  settled hne f g hfg := by
    obtain ⟨hf, hg⟩ := h.settled hne f g hfg
    rw [Store.size_addFrame, Store.size_addFrame]
    exact ⟨Nat.lt_succ_of_lt hf, Nat.lt_succ_of_lt hg⟩

theorem addClosure (h : Paired K w s t) :
    Paired K (withNextClosures w s t) s.addClosure.2 t.addClosure.2 where
  frames := h.frames
  closures := h.closures.add
  outer := h.outer
  bindings f g hfg := (h.bindings f g hfg).mono le_rfl (le_withNextClosures w s t)
  settled := h.settled

/-! ### Finished frames -/

/-- **Only the frames that are paired matter**: two stores are paired if their counts
are right and the frames in question are those of paired stores. -/
theorem transport (h : Paired K w s t)
    (hframes : Tracks K.base.frames K.limit.frames w.frames s'.frames.size t'.frames.size)
    (hclosures : Tracks K.base.closures K.limit.closures w.closures s'.nextClosure t'.nextClosure)
    (hleft : ∀ f g, w.frames f g → s'.frames[f]? = s.frames[f]?)
    (hright : ∀ f g, w.frames f g → t'.frames[g]? = t.frames[g]?)
    (hs : s.frames.size ≤ s'.frames.size) (ht : t.frames.size ≤ t'.frames.size) :
    Paired K w s' t' where
  frames := hframes
  closures := hclosures
  outer f g hfg := by
    rw [Store.outer?_eq_of_getElem?_eq (hleft f g hfg),
      Store.outer?_eq_of_getElem?_eq (hright f g hfg)]
    exact h.outer f g hfg
  bindings f g hfg := by
    rw [Store.bindings_eq_of_getElem?_eq (hleft f g hfg),
      Store.bindings_eq_of_getElem?_eq (hright f g hfg)]
    exact h.bindings f g hfg
  settled hne f g hfg := by
    obtain ⟨hf, hg⟩ := h.settled hne f g hfg
    exact ⟨hf.trans_le hs, hg.trans_le ht⟩

/-- Between two evaluations, what has been paired so far becomes the new base. -/
theorem rebase (h : Paired K w s t) : Paired { K with base := w } w s t where
  frames := h.frames.rebase
  closures := h.closures.rebase
  outer := h.outer
  bindings f g hfg := (h.bindings f g hfg).mono h.base_le le_rfl
  settled hne _ _ hfg := h.frames.lt_of_base_lt (h.settled hne) hfg

theorem finish (h : Paired K w s t) (hw : w ≤ w')
    (hnew : w'.frames s.frames.size t.frames.size) (h' : Paired K w' s' t') (hs : s.Extends s')
    (ht : t.Extends t') {r r' : Except EvalError Datum}
    (hresult : K.terms.Outcome K.base (K.terms.Value K.base w') r r') :
    ∃ w'', w ≤ w'' ∧
      Paired K w'' (K.left.finish s.frames.size r s') (K.right.finish t.frames.size r' t') ∧
      K.terms.Outcome K.base (K.terms.Value K.base w'') r r' := by
  have hescapes : escapes r = escapes r' := by
    cases hresult with
    | ok hv => exact hv.holdsClosure_eq
    | error _ => rfl
  rcases hr : escapes r with - | -
  · by_cases hpolicy : K.left = K.right
    · -- Both frames are cleared, or neither is, and all pairs can be kept.
      refine ⟨w', hw, ?_, hresult⟩
      rw [← hpolicy, FramePolicy.finish.eq_def, FramePolicy.finish.eq_def, ← hescapes, hr]
      cases K.left with
      | keepAll => exact h'
      | clearFinished => exact h'.clear hnew
    · -- No pair that was made inside is of use to the result, or to an older frame.
      have hthere := fun f g hfg =>
        h.frames.lt_of_base_lt (h.settled hpolicy) (a := f) (b := g) hfg
      have hleft := K.left.extends_finish hs le_rfl r
      have hright := K.right.extends_finish ht le_rfl r'
      refine ⟨w, le_rfl, h.transport ?_ ?_ ?_ ?_ hleft.size_le hright.size_le, ?_⟩
      · rw [FramePolicy.size_finish, FramePolicy.size_finish]
        exact h'.frames.restrict h.frames.base_le hw.1
      · rw [FramePolicy.nextClosure_finish, FramePolicy.nextClosure_finish]
        exact h'.closures.restrict h.closures.base_le hw.2
      · exact fun f g hfg => hleft.frame_eq f (hthere f g hfg).1
      · exact fun f g hfg => hright.frame_eq g (hthere f g hfg).2
      · cases hresult with
        | ok hv => exact .ok (hv.of_not_holdsClosure hr)
        | error he => exact .error he
  · -- A closure escapes, so both frames are kept, whatever the policies.
    refine ⟨w', hw, ?_, hresult⟩
    rw [FramePolicy.finish_of_escapes _ _ hr, FramePolicy.finish_of_escapes _ _ (hescapes ▸ hr)]
    exact h'

variable (K) in
/-- **Paired stores are a correspondence.** -/
def correspondence : Correspondence where
  terms := K.terms
  base := K.base
  left := K.left
  right := K.right
  Fits := Paired K
  base_le := base_le
  closures_inj h := h.closures.inj
  lookup h hfg _ hspan := optionRel_imp (fun _ _ hv => hv.withSpan hspan) (h.lookup? hfg _)
  set h hfg _ hv := h.set hfg _ hv
  addFrame h hfg :=
    ⟨_, le_withNextFrames _ _ _, Or.inr ⟨rfl, rfl⟩, h.addFrame (.some hfg)⟩
  addClosure h := ⟨_, le_withNextClosures _ _ _, Or.inr ⟨rfl, rfl⟩, h.addClosure⟩
  finish h hw hnew h' hs ht hresult := h.finish hw hnew h' hs ht hresult

/-- A new root on both sides. -/
theorem addRoot (h : Paired K w s t) (hname : ∀ x, K.terms.name x)
    (hspan : K.terms.span .none .none) :
    Paired K (withNextFrames w s t) s.addRoot.2 t.addRoot.2 := by
  rw [Store.snd_addRoot, Store.snd_addRoot]
  refine (correspondence K).fits_setAll (h.addFrame .none) (Or.inr ⟨rfl, rfl⟩)
    (List.forall₂_same.mpr fun e he => ?_)
  obtain ⟨p, -, rfl⟩ := List.mem_map.mp he
  exact ⟨rfl, hname _, .primitive hspan⟩

end Paired

end SmallLisp
