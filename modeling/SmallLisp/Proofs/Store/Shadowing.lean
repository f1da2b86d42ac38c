import SmallLisp.Proofs.Session.Basic
import SmallLisp.Proofs.Store.Chain

/-!
# Shadowing

Where links go to earlier frames only (`SmallLisp.Store.LinksBack`), they lead from every frame
to an end, and the frames on the way are its chain (`SmallLisp.Store.IsChain`). A name resolves
to the first of these frames that binds it (`SmallLisp.Store.Resolves`), so a frame matters to a
lookup only if it is *on the way*: at or before the frame that is found, or anywhere in the chain
if nothing is found (`SmallLisp.OnTheWay`).

Binding a name in a frame on the way makes it the frame that is found, and hides what was found
before. Clearing the frame that is found uncovers the next one behind it. No other change of a
frame can be seen by the lookup. All of this is `SmallLisp.shadowing_along_chain`; it rests on
the chain being the same before and after the change, and on no frame being twice in it.
-/

namespace SmallLisp

/-- **A frame on the way of a lookup** through the given frames: it stands at or before the frame
that is found, or anywhere if none is found. -/
def OnTheWay (fs : List FrameId) (f : FrameId) (found : Option FrameId) : Prop :=
  ∃ before after, fs = before ++ f :: after ∧ ∀ h, found = some h → h ∈ f :: after

namespace Store

variable {s : Store} {f g : FrameId} {m n : String} {v : Datum} {fs : List FrameId}

/-! ### Chains -/

/-- **Every link goes to a frame made earlier.** Frames are numbered as they are made, and a frame
is made inside one that is there; so this is what it means that no link leads round in a
circle. -/
def LinksBack (s : Store) : Prop := ∀ f o, s.outer? f = some o → o < f

/-- **The links from a frame lead through the given frames**, beginning with itself, and end. -/
inductive IsChain (s : Store) : FrameId → List FrameId → Prop
  | last {f : FrameId} (h : s.outer? f = none) : IsChain s f [f]
  | link {f o : FrameId} {fs : List FrameId} (h : s.outer? f = some o) (hrest : IsChain s o fs) :
    IsChain s f (f :: fs)

/-- A lookup leaves out no link, if all go to earlier frames. -/
theorem LinksBack.isChain (hs : s.LinksBack) (f : FrameId) : s.IsChain f (s.chain f) := by
  fun_induction chain s f with
  | case1 f o hlink _ ih => exact .link hlink ih
  | case2 f o hlink ho => exact absurd (hs f o hlink) ho
  | case3 f hlink => exact .last hlink

/-- Links lead one way only. -/
theorem IsChain.eq_chain (h : s.IsChain f fs) (hs : s.LinksBack) : fs = s.chain f := by
  induction h with
  | last h => rw [chain, h]
  | @link f o fs h _ ih =>
    rw [chain, h, ih]
    exact (if_pos (hs f o h)).symm

theorem le_of_mem_chain (hg : g ∈ s.chain f) : g ≤ f := by
  fun_induction chain s f with
  | case1 f o _ ho ih =>
    rcases List.mem_cons.mp hg with rfl | hg
    · exact le_rfl
    · exact (ih hg).trans ho.le
  | case2 f _ _ _ => exact (List.mem_singleton.mp hg).le
  | case3 f _ => exact (List.mem_singleton.mp hg).le

/-- A chain goes to earlier and earlier frames. -/
theorem pairwise_gt_chain (s : Store) (f : FrameId) : (s.chain f).Pairwise (· > ·) := by
  fun_induction chain s f with
  | case1 f o _ ho ih =>
    exact List.pairwise_cons.mpr ⟨fun g hg => (le_of_mem_chain hg).trans_lt ho, ih⟩
  | case2 f _ _ _ => exact List.pairwise_singleton _ f
  | case3 f _ => exact List.pairwise_singleton _ f

/-- No frame is twice in a chain. -/
theorem nodup_chain (s : Store) (f : FrameId) : (s.chain f).Nodup :=
  (pairwise_gt_chain s f).imp fun h => Nat.ne_of_gt h

/-- Changing bindings changes no chain. -/
theorem chain_modify (s : Store) (f g : FrameId) (change : Bindings → Bindings) :
    (s.modify f change).chain g = s.chain g := by
  fun_induction chain s g with
  | case1 g o hlink ho ih => rw [chain, outer?_modify, hlink, ← ih]; exact if_pos ho
  | case2 g o hlink ho => rw [chain, outer?_modify, hlink]; exact if_neg ho
  | case3 g hlink => rw [chain, outer?_modify, hlink]

/-! ### Resolving -/

/-- **What a name resolves to along the given frames**: the first of them that binds it, or
nothing if none does. -/
inductive Resolves (s : Store) (name : String) (fs : List FrameId) : Option FrameId → Prop
  | found {before after : List FrameId} {h : FrameId} (hfs : fs = before ++ h :: after)
    (hbefore : ∀ k ∈ before, (s.bindings k).binds name = false)
    (hbinds : (s.bindings h).binds name = true) : Resolves s name fs (some h)
  | unbound (hnone : ∀ k ∈ fs, (s.bindings k).binds name = false) : Resolves s name fs none

theorem find?_binds_eq_iff {found : Option FrameId} :
    (fs.find? fun k => (s.bindings k).binds m) = found ↔ s.Resolves m fs found := by
  cases found with
  | none =>
    rw [List.find?_eq_none]
    constructor
    · exact fun h => .unbound fun k hk => Bool.eq_false_iff.mpr (h k hk)
    · rintro (_ | hnone)
      exact fun k hk => Bool.eq_false_iff.mp (hnone k hk)
  | some h =>
    rw [List.find?_eq_some_iff_append]
    constructor
    · rintro ⟨hbinds, before, after, hfs, hbefore⟩
      exact .found hfs (fun k hk => by simpa using hbefore k hk) hbinds
    · rintro ⟨hfs, hbefore, hbinds⟩
      exact ⟨hbinds, _, _, hfs, fun k hk => by simpa using hbefore k hk⟩

/-- **A lookup finds what the name resolves to along the chain.** -/
theorem find?_eq_iff {found : Option FrameId} :
    s.find? m g = found ↔ s.Resolves m (s.chain g) found := by
  rw [find?_eq_chain, find?_binds_eq_iff]

theorem resolves_find? (s : Store) (m : String) (g : FrameId) :
    s.Resolves m (s.chain g) (s.find? m g) :=
  find?_eq_iff.mp rfl

/-- Frames in front that do not bind the name are passed. -/
theorem resolves_append_iff {front : List FrameId} {found : Option FrameId}
    (hfront : ∀ k ∈ front, (s.bindings k).binds m = false) :
    s.Resolves m (front ++ fs) found ↔ s.Resolves m fs found := by
  have hnone : (front.find? fun k => (s.bindings k).binds m) = none :=
    find?_binds_eq_iff.mpr (.unbound hfront)
  rw [← find?_binds_eq_iff, ← find?_binds_eq_iff, List.find?_append, hnone, Option.none_or]

/-- It only matters which of the frames bind the name. -/
theorem Resolves.of_binds_eq {t : Store} {found : Option FrameId} (h : t.Resolves m fs found)
    (heq : ∀ k ∈ fs, (t.bindings k).binds m = (s.bindings k).binds m) :
    s.Resolves m fs found := by
  cases h with
  | @found before after h hfs hbefore hbinds =>
    refine .found hfs (fun k hk => ?_) ?_
    · rw [← heq k (hfs ▸ List.mem_append_left _ hk), hbefore k hk]
    · rw [← heq h (hfs ▸ List.mem_append_right _ List.mem_cons_self), hbinds]
  | unbound hnone => exact .unbound fun k hk => (heq k hk).symm.trans (hnone k hk)

/-- A frame that is found has a value for the name. -/
theorem exists_get?_of_find? {h : FrameId} (hfound : s.find? m g = some h) :
    ∃ v, (s.bindings h).get? m = some v := by
  cases find?_eq_iff.mp hfound with
  | found _ _ hbinds => exact Option.isSome_iff_exists.mp hbinds

/-- Frames that stand before one on the way do not bind the name. -/
theorem Resolves.binds_eq_false {found : Option FrameId} {before after : List FrameId}
    (h : s.Resolves m (before ++ f :: after) found) (hnodup : (before ++ f :: after).Nodup)
    (hway : ∀ k, found = some k → k ∈ f :: after) :
    ∀ k ∈ before, (s.bindings k).binds m = false := by
  cases h with
  | unbound hnone => exact fun k hk => hnone k (List.mem_append_left _ hk)
  | @found before' after' k hfs hbefore hbinds =>
    have hk : k ∉ before := fun hmem =>
      (List.nodup_append.mp hnodup).2.2 k hmem k (hway k rfl) rfl
    -- the frames before `f` are among those that were passed before `k` was found
    rcases List.append_eq_append_iff.mp hfs with ⟨c, hc, -⟩ | ⟨c, hc, hrest⟩
    · exact fun x hx => hbefore x (hc ▸ List.mem_append_left _ hx)
    · cases c with
      | nil => exact fun x hx => hbefore x (by rwa [hc, List.append_nil] at hx)
      | cons y c =>
        obtain ⟨rfl, -⟩ := List.cons.inj hrest
        exact absurd (hc ▸ List.mem_append_right _ List.mem_cons_self) hk

/-! ### Binding a name -/

theorem get?_set (hf : f < s.frames.size) (k : FrameId) :
    ((s.set f n v).bindings k).get? m =
      if k = f ∧ m = n then some v else (s.bindings k).get? m := by
  rw [set, bindings_modify s f k _ hf]
  by_cases hk : k = f
  · simp [hk]
  · simp [hk, Ne.symm hk]

theorem binds_set (hf : f < s.frames.size) (k : FrameId) :
    ((s.set f n v).bindings k).binds m = (decide (k = f ∧ m = n) || (s.bindings k).binds m) := by
  rw [Bindings.binds, get?_set hf]
  by_cases h : k = f ∧ m = n <;> simp [h, Bindings.binds]

/-- **A frame on the way that binds the name is the one that is found.** -/
theorem find?_set_of_onTheWay (hf : f < s.frames.size)
    (hway : OnTheWay (s.chain g) f (s.find? n g)) : (s.set f n v).find? n g = some f := by
  obtain ⟨before, after, hchain, hfound⟩ := hway
  have hnodup := hchain ▸ nodup_chain s g
  have hpassed := (hchain ▸ resolves_find? s n g).binds_eq_false hnodup hfound
  rw [find?_eq_iff, set, chain_modify, ← set]
  refine .found hchain (fun k hk => ?_) (by rw [binds_set hf]; simp)
  have hne : k ≠ f := (List.nodup_append.mp hnodup).2.2 k hk f List.mem_cons_self
  rw [binds_set hf, hpassed k hk]
  simp [hne]

/-- **No other binding is noticed.** -/
theorem find?_set_of_not_onTheWay (hf : f < s.frames.size)
    (hway : ¬(m = n ∧ OnTheWay (s.chain g) f (s.find? m g))) :
    (s.set f n v).find? m g = s.find? m g := by
  rw [find?_eq_iff, set, chain_modify, ← set]
  have hresolves := resolves_find? s m g
  generalize s.find? m g = found at hway hresolves
  cases hresolves with
  | @found before after h hchain hbefore hbinds =>
    refine .found hchain (fun k hk => ?_) (by rw [binds_set hf, hbinds, Bool.or_true])
    rw [binds_set hf, hbefore k hk, Bool.or_false, decide_eq_false_iff_not]
    rintro ⟨rfl, hm⟩
    -- the frame would stand before the one that is found
    obtain ⟨b, c, rfl⟩ := List.append_of_mem hk
    refine hway ⟨hm, b, c ++ h :: after, by simpa using hchain, fun _ heq => ?_⟩
    obtain rfl := Option.some.inj heq
    simp
  | unbound hnone =>
    refine .unbound fun k hk => ?_
    rw [binds_set hf, hnone k hk, Bool.or_false, decide_eq_false_iff_not]
    rintro ⟨rfl, hm⟩
    obtain ⟨b, c, hchain⟩ := List.append_of_mem hk
    exact hway ⟨hm, b, c, hchain, fun _ heq => absurd heq.symm (Option.some_ne_none _)⟩

theorem lookup?_set_of_not_onTheWay (hf : f < s.frames.size)
    (hway : ¬(m = n ∧ OnTheWay (s.chain g) f (s.find? m g))) :
    (s.set f n v).lookup? m g = s.lookup? m g := by
  rw [lookup?, lookup?, find?_set_of_not_onTheWay hf hway]
  refine Option.bind_congr fun h hfound => ?_
  -- the frame that is found is the last one on the way
  rw [get?_set hf, if_neg]
  rintro ⟨rfl, rfl⟩
  cases find?_eq_iff.mp hfound with
  | @found before after _ hchain _ _ =>
    refine hway ⟨rfl, before, after, hchain, fun k hk => ?_⟩
    obtain rfl := Option.some.inj (hfound.symm.trans hk)
    exact List.mem_cons_self

/-! ### Clearing a frame -/

theorem get?_clear (s : Store) (f k : FrameId) (m : String) :
    ((s.clear f).bindings k).get? m = if k = f then none else (s.bindings k).get? m := by
  by_cases hk : k = f
  · rw [if_pos hk, hk, bindings_clear_self, Bindings.get?_empty]
  · rw [if_neg hk, bindings_clear_of_ne s (Ne.symm hk)]

theorem binds_clear (s : Store) (f k : FrameId) (m : String) :
    ((s.clear f).bindings k).binds m = (decide (k ≠ f) && (s.bindings k).binds m) := by
  rw [Bindings.binds, get?_clear]
  by_cases hk : k = f <;> simp [hk, Bindings.binds]

/-- **Clearing the frame that is found uncovers the next one behind it.** -/
theorem resolves_find?_clear (hfound : s.find? m g = some f) {before after : List FrameId}
    (hchain : s.chain g = before ++ f :: after) :
    s.Resolves m after ((s.clear f).find? m g) := by
  have hnodup := hchain ▸ nodup_chain s g
  have hpassed := (hchain ▸ resolves_find? s m g).binds_eq_false hnodup fun k hk => by
    obtain rfl := Option.some.inj (hfound.symm.trans hk)
    exact List.mem_cons_self
  have hfront : ∀ k ∈ before ++ [f], ((s.clear f).bindings k).binds m = false := by
    intro k hk
    rw [binds_clear]
    rcases List.mem_append.mp hk with hk | hk
    · rw [hpassed k hk, Bool.and_false]
    · simp [List.mem_singleton.mp hk]
  -- the cleared frame is not behind itself, so what is bound there is not touched
  have hbehind : ∀ k ∈ after, ((s.clear f).bindings k).binds m = (s.bindings k).binds m := by
    intro k hk
    have hne : k ≠ f := fun heq =>
      (List.nodup_cons.mp (List.nodup_append.mp hnodup).2.1).1 (heq ▸ hk)
    rw [binds_clear, decide_eq_true hne, Bool.true_and]
  have hresolves := resolves_find? (s.clear f) m g
  rw [clear, chain_modify, ← clear, hchain, List.append_cons] at hresolves
  exact ((resolves_append_iff hfront).mp hresolves).of_binds_eq hbehind

/-- **A lookup that finds another frame does not notice.** -/
theorem find?_clear_of_ne (hfound : s.find? m g ≠ some f) :
    (s.clear f).find? m g = s.find? m g := by
  rw [find?_eq_iff, clear, chain_modify, ← clear]
  have hresolves := resolves_find? s m g
  generalize s.find? m g = found at hfound hresolves
  cases hresolves with
  | @found before after h hchain hbefore hbinds =>
    have hne : h ≠ f := fun heq => hfound (congrArg some heq)
    refine .found hchain (fun k hk => ?_) ?_
    · rw [binds_clear, hbefore k hk, Bool.and_false]
    · rw [binds_clear, hbinds, Bool.and_true, decide_eq_true hne]
  | unbound hnone =>
    refine .unbound fun k hk => ?_
    rw [binds_clear, hnone k hk, Bool.and_false]

/-- What is still found has the value it had. -/
theorem lookup?_clear (s : Store) (f g : FrameId) (m : String) :
    (s.clear f).lookup? m g = ((s.clear f).find? m g).bind fun h => (s.bindings h).get? m := by
  refine Option.bind_congr fun h hfound => ?_
  -- a cleared frame is not found
  have hne : h ≠ f := by
    rintro rfl
    cases find?_eq_iff.mp hfound with
    | found _ _ hbinds =>
      rw [binds_clear] at hbinds
      simp at hbinds
  rw [get?_clear, if_neg hne]

end Store

/-! ### The laws together -/

/-- A session answers with the value of a name as it stands, or with the error that the name is
not bound. -/
theorem Session.step_get {policy : FramePolicy} {depth : Nat} {sess : Session} {frame m : String}
    {g : FrameId} {span : Span} (hframe : sess.frames.lookup frame = some g) :
    sess.step policy depth (.get frame m span none) =
      match sess.store.lookup? m g with
      | some v => .ok (.ok (.datum v), sess)
      | none => .ok (.error (.eval (.unbound m span)), sess) := by
  rw [Session.step, Session.named_eq_ok_iff.mpr hframe]
  change (match sess.store.lookup? m g with | some v => _ | none => _) = _
  cases sess.store.lookup? m g <;> rfl

/-- **Shadowing along a chain.** In a store whose links go to earlier frames, every frame `g` has a
finite chain, and a name resolves along it.

* A lookup finds the first frame of the chain that binds the name, and nothing exactly if none
  does; it gives the value bound there, or the error that this name is not bound, at the span of
  the lookup.
* If a name is bound in a frame on the way of its own lookup, that frame and the new value are
  what is found from then on. No other lookup sees the binding.
* If the frame that is found is cleared, the lookup goes on to the next frame behind it that binds
  the name, and to the value that it has there. No other lookup is changed. -/
theorem shadowing_along_chain {s : Store} (hs : s.LinksBack) (g : FrameId) (m : String) :
    ∃ fs, s.IsChain g fs ∧
      (∀ found, s.find? m g = found ↔ s.Resolves m fs found) ∧
      (∀ policy depth (sess : Session) frame span,
        sess.store = s → sess.frames.lookup frame = some g →
        (∀ h, s.find? m g = some h → ∃ v, (s.bindings h).get? m = some v ∧
          sess.step policy depth (.get frame m span none) = .ok (.ok (.datum v), sess)) ∧
        (s.find? m g = none → sess.step policy depth (.get frame m span none) =
          .ok (.error (.eval (.unbound m span)), sess))) ∧
      (∀ f < s.frames.size, ∀ n v,
        (m = n ∧ OnTheWay fs f (s.find? m g) →
          (s.set f n v).find? m g = some f ∧ (s.set f n v).lookup? m g = some v) ∧
        (¬(m = n ∧ OnTheWay fs f (s.find? m g)) →
          (s.set f n v).find? m g = s.find? m g ∧ (s.set f n v).lookup? m g = s.lookup? m g)) ∧
      ∀ f,
        (s.find? m g = some f → ∀ before after, fs = before ++ f :: after →
          s.Resolves m after ((s.clear f).find? m g) ∧
          (s.clear f).lookup? m g =
            ((s.clear f).find? m g).bind fun h => (s.bindings h).get? m) ∧
        (s.find? m g ≠ some f →
          (s.clear f).find? m g = s.find? m g ∧ (s.clear f).lookup? m g = s.lookup? m g) := by
  refine ⟨s.chain g, hs.isChain g, fun found => Store.find?_eq_iff, ?_, ?_, ?_⟩
  · rintro policy depth sess frame span rfl hframe
    constructor
    · intro h hfound
      obtain ⟨v, hv⟩ := Store.exists_get?_of_find? hfound
      refine ⟨v, hv, ?_⟩
      rw [Session.step_get hframe, Store.lookup?, hfound, Option.bind_some, hv]
    · intro hfound
      rw [Session.step_get hframe, Store.lookup?, hfound, Option.bind_none]
  · intro f hf n v
    constructor
    · rintro ⟨rfl, hway⟩
      have hfound := Store.find?_set_of_onTheWay (v := v) hf hway
      refine ⟨hfound, ?_⟩
      rw [Store.lookup?, hfound, Option.bind_some, Store.get?_set hf]
      exact if_pos ⟨rfl, rfl⟩
    · exact fun hway =>
        ⟨Store.find?_set_of_not_onTheWay hf hway, Store.lookup?_set_of_not_onTheWay hf hway⟩
  · intro f
    refine ⟨fun hfound before after hchain => ?_, fun hne => ?_⟩
    · exact ⟨Store.resolves_find?_clear hfound hchain, Store.lookup?_clear s f g m⟩
    · have hfind := Store.find?_clear_of_ne hne
      exact ⟨hfind, by rw [Store.lookup?_clear, hfind, Store.lookup?]⟩

/-- Of three frames the innermost and the outermost bind `x`, and the one between them binds `y`.
Clearing the innermost frame uncovers the outermost binding of `x`; binding `y` in the innermost
frame hides that of the frame between. -/
theorem cleared_frame_uncovers_outermost :
    let n := Span.none
    let s : Store := ⟨#[⟨none, ⟨[("x", .boolean true n)]⟩⟩, ⟨some 0, ⟨[("y", .list [] n)]⟩⟩,
      ⟨some 1, ⟨[("x", .boolean false n)]⟩⟩], 0⟩
    s.LinksBack ∧ s.find? "x" 2 = some 2 ∧ (s.clear 2).find? "x" 2 = some 0 ∧
      s.find? "y" 2 = some 1 ∧ (s.set 2 "y" (.boolean true n)).find? "y" 2 = some 2 ∧
      (s.set 2 "y" (.boolean true n)).lookup? "y" 2 = some (.boolean true n) := by
  intro n s
  have hs : s.LinksBack := by
    intro f o hlink
    rcases f with - | - | - | f
    · cases hlink
    · obtain rfl := Option.some.inj hlink
      decide
    · obtain rfl := Option.some.inj hlink
      decide
    · cases hlink
  have hchain : s.chain 2 = [2, 1, 0] := by unfold s n; decide +kernel
  have hx : s.find? "x" 2 = some 2 := by unfold s n; decide +kernel
  have hy : s.find? "y" 2 = some 1 := by unfold s n; decide +kernel
  obtain ⟨fs, hfs, -, -, -, hclear⟩ := shadowing_along_chain hs 2 "x"
  obtain rfl := (hfs.eq_chain hs).trans hchain
  obtain ⟨fs, hfs, -, -, hset, -⟩ := shadowing_along_chain hs 2 "y"
  obtain rfl := (hfs.eq_chain hs).trans hchain
  have huncovered := (((hclear 2).1 hx) [] [1, 0] rfl).1
  have hhidden := (hset 2 (by decide) "y" (.boolean true n)).1
    ⟨rfl, [], [1, 0], rfl, fun h hh => by simp [← Option.some.inj (hy.symm.trans hh)]⟩
  refine ⟨hs, hx, ?_, hy, hhidden⟩
  rw [← Store.find?_binds_eq_iff.mpr huncovered]
  rfl

end SmallLisp
