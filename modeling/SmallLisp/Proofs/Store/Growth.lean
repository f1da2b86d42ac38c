import Mathlib.Data.Set.Basic
import Mathlib.Order.Defs.Unbundled
import SmallLisp.Store.Basic

/-!
# How stores grow

Frames are added and never taken away, and of the frames that were there only few
are written. Two relations between a store and a later one say so, and both are
reflexive and transitive, so that they pass from single operations to whole runs.

* `SmallLisp.Store.Extends` – every frame that was there is as it was;
* `SmallLisp.Store.Changes` – **every frame that was there is as it was, but for
  one**: that one keeps its link outward and its names, and gets new values only
  for names of a given set.

A new frame is not among the frames that were there. So whatever happens to it, the
store is extended (`SmallLisp.Store.Changes.extends_of_addFrame`), which is how the
writes of a call stay out of sight of its caller.
-/

namespace SmallLisp

attribute [ext] Frame

namespace Store

/-! ### Single frames -/

theorem getElem?_addFrame (s : Store) (outer : Option FrameId) (b : Bindings) (g : FrameId) :
    (s.addFrame outer b).2.frames[g]? =
      if g = s.frames.size then some ⟨outer, b⟩ else s.frames[g]? := by
  simp only [addFrame, Array.getElem?_push]

theorem getElem?_modify_of_ne (s : Store) {f g : FrameId} (h : g ≠ f)
    (change : Bindings → Bindings) : (s.modify f change).frames[g]? = s.frames[g]? := by
  simp [modify, Array.getElem?_modify, h.symm]

@[simp]
theorem size_addFrame (s : Store) (outer : Option FrameId) (b : Bindings) :
    (s.addFrame outer b).2.frames.size = s.frames.size + 1 := by
  simp [addFrame]

@[simp]
theorem size_set (s : Store) (f : FrameId) (name : String) (v : Datum) :
    (s.set f name v).frames.size = s.frames.size :=
  size_modify s f _

@[simp]
theorem size_clear (s : Store) (f : FrameId) : (s.clear f).frames.size = s.frames.size :=
  size_modify s f _

/-- The link and the bindings of a frame are read off the frame. -/
theorem outer?_eq_of_getElem?_eq {s t : Store} {f g : FrameId} (h : s.frames[f]? = t.frames[g]?) :
    s.outer? f = t.outer? g := by
  rw [outer?, outer?, h]

theorem bindings_eq_of_getElem?_eq {s t : Store} {f g : FrameId}
    (h : s.frames[f]? = t.frames[g]?) : s.bindings f = t.bindings g := by
  rw [bindings, bindings, h]

/-- A frame is what can be read off it. -/
theorem getElem?_eq_of_reads {s t : Store} {f : FrameId} (hs : f < s.frames.size)
    (ht : f < t.frames.size) (houter : s.outer? f = t.outer? f)
    (hbindings : s.bindings f = t.bindings f) : s.frames[f]? = t.frames[f]? := by
  rw [outer?, outer?] at houter
  rw [bindings, bindings] at hbindings
  rw [Array.getElem?_eq_getElem hs, Array.getElem?_eq_getElem ht] at houter hbindings ⊢
  exact congrArg some (Frame.ext houter hbindings)

/-- **A store is what can be read off it**: its counts, and the link and the bindings of
each frame. -/
theorem eq_of_reads {s t : Store} (hsize : s.frames.size = t.frames.size)
    (hnext : s.nextClosure = t.nextClosure) (houter : ∀ f, s.outer? f = t.outer? f)
    (hbindings : ∀ f, s.bindings f = t.bindings f) : s = t := by
  have hframes : s.frames = t.frames := by
    refine Array.ext_getElem? fun f => ?_
    rcases Nat.lt_or_ge f s.frames.size with hf | hf
    · exact getElem?_eq_of_reads hf (hsize ▸ hf) (houter f) (hbindings f)
    · rw [Array.getElem?_eq_none hf, Array.getElem?_eq_none (hsize ▸ hf)]
  cases s
  cases t
  simp only [mk.injEq]
  exact ⟨hframes, hnext⟩

/-- A new frame has the link that it was made with, and the others keep theirs. -/
theorem outer?_addFrame (s : Store) (outer : Option FrameId) (b : Bindings) (g : FrameId) :
    (s.addFrame outer b).2.outer? g = if g = s.frames.size then outer else s.outer? g := by
  rw [outer?, getElem?_addFrame]
  split <;> rfl

theorem bindings_addFrame (s : Store) (outer : Option FrameId) (b : Bindings) (g : FrameId) :
    (s.addFrame outer b).2.bindings g = if g = s.frames.size then b else s.bindings g := by
  rw [bindings, getElem?_addFrame]
  split <;> rfl

@[simp]
theorem size_setAll (s : Store) (f : FrameId) (entries : List (String × Datum)) :
    (s.setAll f entries).frames.size = s.frames.size := by
  induction entries generalizing s with
  | nil => rfl
  | cons e entries ih => exact (ih _).trans (size_set s f e.1 e.2)

/-- A new root is a new frame, in which the primitives are then bound. -/
theorem snd_addRoot (s : Store) :
    s.addRoot.2 = (s.addFrame none .empty).2.setAll s.frames.size
      (Primitive.library.map fun e => (e.1, .primitive e.2 Span.none)) := rfl

@[simp]
theorem size_addRoot (s : Store) : s.addRoot.2.frames.size = s.frames.size + 1 := by
  rw [snd_addRoot, size_setAll, size_addFrame]

/-- Only the frame that is changed has other bindings afterwards, and only if it is
there. -/
theorem bindings_modify_eq (s : Store) (f g : FrameId) (change : Bindings → Bindings) :
    (s.modify f change).bindings g =
      if f = g ∧ f < s.frames.size then change (s.bindings g) else s.bindings g := by
  by_cases hf : f < s.frames.size
  · rw [bindings_modify s f g change hf]
    simp only [hf, and_true]
  · rw [if_neg fun h => hf h.2, bindings, bindings, modify, Array.getElem?_modify]
    -- There is no such frame: it has no bindings before, and none after.
    split
    · next heq =>
      subst heq
      rw [Array.getElem?_eq_none (Nat.le_of_not_lt hf)]
      rfl
    · rfl

/-! ### Stores that keep every frame -/

/-- **Every frame of the first store is in the second as it was.** -/
structure Extends (s t : Store) : Prop where
  /-- No frame is taken away. -/
  size_le : s.frames.size ≤ t.frames.size
  /-- No identity of a closure is given out again. -/
  closures_le : s.nextClosure ≤ t.nextClosure
  /-- The frames that were there have the links and the bindings they had. -/
  frame_eq : ∀ g < s.frames.size, t.frames[g]? = s.frames[g]?

theorem Extends.refl (s : Store) : Extends s s := ⟨le_rfl, le_rfl, fun _ _ => rfl⟩

theorem Extends.trans {s t u : Store} (hst : Extends s t) (htu : Extends t u) : Extends s u where
  size_le := hst.size_le.trans htu.size_le
  closures_le := hst.closures_le.trans htu.closures_le
  frame_eq g hg := (htu.frame_eq g (hg.trans_le hst.size_le)).trans (hst.frame_eq g hg)

instance : IsPreorder Store Extends where
  refl := Extends.refl
  trans _ _ _ := Extends.trans

theorem extends_addClosure (s : Store) : Extends s s.addClosure.2 where
  size_le := le_rfl
  closures_le := Nat.le_succ _
  frame_eq _ _ := rfl

/-! ### Stores that keep every frame but one -/

/-- **Every frame of the first store but `f` is in the second as it was**, and `f`
itself has the link it had, all the names it had, and the values it had for names
that are not in `names`. -/
structure Changes (f : FrameId) (names : Set String) (s t : Store) : Prop where
  /-- No frame is taken away. -/
  size_le : s.frames.size ≤ t.frames.size
  /-- No identity of a closure is given out again. -/
  closures_le : s.nextClosure ≤ t.nextClosure
  /-- The other frames that were there have the links and the bindings they had. -/
  frame_eq : ∀ g < s.frames.size, g ≠ f → t.frames[g]? = s.frames[g]?
  /-- The frame keeps its link outward. -/
  outer_eq : f < s.frames.size → t.outer? f = s.outer? f
  /-- The frame loses no name. -/
  binds_of_binds : f < s.frames.size → ∀ x, (s.bindings f).binds x → (t.bindings f).binds x
  /-- Names outside the set have the values they had, or none as before. -/
  get?_eq : f < s.frames.size → ∀ x ∉ names, (t.bindings f).get? x = (s.bindings f).get? x

namespace Changes

variable {f : FrameId} {names : Set String} {s t u : Store}

theorem refl (f : FrameId) (names : Set String) (s : Store) : Changes f names s s :=
  ⟨le_rfl, le_rfl, fun _ _ _ => rfl, fun _ => rfl, fun _ _ h => h, fun _ _ _ => rfl⟩

theorem trans (hst : Changes f names s t) (htu : Changes f names t u) : Changes f names s u where
  size_le := hst.size_le.trans htu.size_le
  closures_le := hst.closures_le.trans htu.closures_le
  frame_eq g hg hne := (htu.frame_eq g (hg.trans_le hst.size_le) hne).trans (hst.frame_eq g hg hne)
  outer_eq hf := (htu.outer_eq (hf.trans_le hst.size_le)).trans (hst.outer_eq hf)
  binds_of_binds hf x hx :=
    htu.binds_of_binds (hf.trans_le hst.size_le) x (hst.binds_of_binds hf x hx)
  get?_eq hf x hx := (htu.get?_eq (hf.trans_le hst.size_le) x hx).trans (hst.get?_eq hf x hx)

instance (f : FrameId) (names : Set String) : IsPreorder Store (Changes f names) where
  refl := refl f names
  trans _ _ _ := trans

theorem mono {more : Set String} (h : Changes f names s t) (hsub : names ⊆ more) :
    Changes f more s t :=
  { h with get?_eq := fun hf x hx => h.get?_eq hf x fun hmem => hx (hsub hmem) }

end Changes

theorem Extends.changes {s t : Store} (h : Extends s t) (f : FrameId) (names : Set String) :
    Changes f names s t where
  size_le := h.size_le
  closures_le := h.closures_le
  frame_eq g hg _ := h.frame_eq g hg
  outer_eq hf := outer?_eq_of_getElem?_eq (h.frame_eq f hf)
  binds_of_binds hf x hx := by rwa [bindings_eq_of_getElem?_eq (h.frame_eq f hf)]
  get?_eq hf x _ := by rw [bindings_eq_of_getElem?_eq (h.frame_eq f hf)]

/-- Binding a name writes one frame, and there one name. -/
theorem changes_set (s : Store) (f : FrameId) (name : String) (v : Datum) :
    Changes f {name} s (s.set f name v) where
  size_le := by simp
  closures_le := le_rfl
  frame_eq g _ hne := getElem?_modify_of_ne s hne _
  outer_eq _ := outer?_set s f f name v
  binds_of_binds hf x hx := by
    rw [set, bindings_modify s f f _ hf, if_pos rfl, Bindings.binds, Bindings.get?_insert]
    split
    · rfl
    · exact hx
  get?_eq hf x hx := by
    have hne : x ≠ name := hx
    rw [set, bindings_modify s f f _ hf, if_pos rfl, Bindings.get?_insert, if_neg hne]

theorem changes_setAll (s : Store) (f : FrameId) (entries : List (String × Datum)) :
    Changes f Set.univ s (s.setAll f entries) := by
  induction entries generalizing s with
  | nil => exact Changes.refl f _ s
  | cons e entries ih =>
    have hfirst : Changes f Set.univ s (s.set f e.1 e.2) :=
      (changes_set s f e.1 e.2).mono (Set.subset_univ _)
    exact hfirst.trans (ih (s.set f e.1 e.2))

/-- **What happens to a new frame extends the store it is new in.** -/
theorem Changes.extends_of_addFrame {s t : Store} {outer : Option FrameId} {b : Bindings}
    {names : Set String} (h : Changes s.frames.size names (s.addFrame outer b).2 t) :
    Extends s t where
  size_le := by
    have := h.size_le
    rw [size_addFrame] at this
    omega
  closures_le := h.closures_le
  frame_eq g hg := by
    have hsize : g < (s.addFrame outer b).2.frames.size := by
      rw [size_addFrame]
      omega
    -- `g` was there, so it is neither the frame that is written nor the one that was added.
    rw [h.frame_eq g hsize hg.ne, getElem?_addFrame, if_neg hg.ne]

theorem extends_addRoot (s : Store) : Extends s s.addRoot.2 := by
  rw [snd_addRoot]
  exact Changes.extends_of_addFrame (changes_setAll _ _ _)

/-- Clearing a frame that is new since `s` does not show in the frames of `s`. -/
theorem Extends.clear {s t : Store} (h : Extends s t) {f : FrameId} (hf : s.frames.size ≤ f) :
    Extends s (t.clear f) where
  size_le := by
    rw [size_clear]
    exact h.size_le
  closures_le := h.closures_le
  frame_eq g hg := by
    rw [← h.frame_eq g hg]
    exact getElem?_modify_of_ne t (hg.trans_le hf).ne _

end Store

end SmallLisp
