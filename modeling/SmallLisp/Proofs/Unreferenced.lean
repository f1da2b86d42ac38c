import Mathlib
import SmallLisp.Proofs.Correspondence.Eval
import SmallLisp.Proofs.Likeness.Renumber

/-!
# Bindings that nothing refers to

A program finds a binding by its name. If a name occurs neither in a program nor in any
closure that the program can get at, then a binding of that name makes no difference to
the program, in whatever frame it stands
(`SmallLisp.unreferenced_binding_unobservable`).

The stores of the two evaluations, with and without the binding, are the same once the
binding is taken out of both (`SmallLisp.Store.erase`). Every operation that an evaluation
makes commutes with taking it out, as long as it is about other names; so all that remains
to be seen is that the name does not turn up. It may well stand in a value, as a quoted
symbol, for a value is never evaluated. What must not use it are programs, and the
programs of an evaluation are parts of the one that it began with, and the bodies of
closures that can be reached (`SmallLisp.Terms.avoiding`).
-/

namespace SmallLisp

/-! ### The names in a program -/

namespace Datum

mutual

/-- **The names that occur in a datum**: its symbols, and the parameters of its closures,
at any depth and in the bodies of closures as well. -/
def names : Datum → List String
  | .symbol x _ => [x]
  | .atom _ _ => []
  | .list es _ => namesOfAll es
  | .primitive _ _ => []
  | .closure _ params body _ _ => params ++ namesOfAll body

/-- The names that occur in the data of a list. -/
def namesOfAll : List Datum → List String
  | [] => []
  | d :: ds => names d ++ namesOfAll ds

end

mutual

/-- **The names that occur in the closures of a value.** The symbols that stand in the
value itself are not among them. -/
def closureNames : Datum → List String
  | .atom _ _ => []
  | .list es _ => closureNamesOfAll es
  | .primitive _ _ => []
  | .closure _ params body _ _ => params ++ namesOfAll body

/-- The names that occur in the closures of several values. -/
def closureNamesOfAll : List Datum → List String
  | [] => []
  | d :: ds => closureNames d ++ closureNamesOfAll ds

end

theorem mem_namesOfAll {ds : List Datum} {x : String} :
    x ∈ namesOfAll ds ↔ ∃ d ∈ ds, x ∈ d.names := by
  induction ds with
  | nil => simp [namesOfAll]
  | cons d ds ih => simp [namesOfAll, ih]

theorem mem_closureNamesOfAll {ds : List Datum} {x : String} :
    x ∈ closureNamesOfAll ds ↔ ∃ d ∈ ds, x ∈ d.closureNames := by
  induction ds with
  | nil => simp [closureNamesOfAll]
  | cons d ds ih => simp [closureNamesOfAll, ih]

/-- An expression defines no name that does not occur in it. -/
theorem definedNames_subset_names (d : Datum) : d.definedNames ⊆ d.names := by
  induction d using Datum.induction with
  | atom | primitive | closure => exact List.nil_subset _
  | list es s ih =>
    have hall : ∀ e ∈ es, ∀ x ∈ e.definedNames, x ∈ (Datum.list es s).names := fun e he x hx =>
      mem_namesOfAll.mpr ⟨e, he, ih e he hx⟩
    intro x hx
    rcases es with - | ⟨d, ds⟩
    · exact absurd hx List.not_mem_nil
    · rw [definedNames.eq_def] at hx
      dsimp only at hx
      split at hx
      · split at hx
        · next name _ value =>
          rcases List.mem_cons.mp hx with rfl | hx
          · exact mem_namesOfAll.mpr ⟨_, List.mem_cons_of_mem _ List.mem_cons_self,
              List.mem_singleton.mpr rfl⟩
          · exact hall value (by simp) x hx
        · exact absurd hx List.not_mem_nil
      · rw [definedNamesOfAll_eq] at hx
        obtain ⟨e, he, hx⟩ := List.mem_flatMap.mp hx
        exact hall e (List.mem_cons_of_mem _ he) x hx
      · exact absurd hx List.not_mem_nil
      · rw [definedNamesOfAll_eq] at hx
        rcases List.mem_append.mp hx with hx | hx
        · exact hall d List.mem_cons_self x hx
        · obtain ⟨e, he, hx⟩ := List.mem_flatMap.mp hx
          exact hall e (List.mem_cons_of_mem _ he) x hx

end Datum

/-! ### Programs that avoid a name -/

namespace Terms

/-- The terms on which like data have equal spans, and programs do not use a given
name. -/
def avoiding (x : String) : Terms := ⟨Eq, fun y => y ≠ x⟩

variable {x : String} {live : Set FrameId} {d : Datum}

/-- **A program that the name does not occur in is like itself.** -/
theorem code_avoiding_self (hx : x ∉ d.names) (hd : ∀ g ∈ d.captured, g ∈ live) :
    (avoiding x).Code (.on live) d d := by
  induction d using Datum.induction with
  | atom a s =>
    refine .atom ?_ rfl
    rintro y rfl rfl
    exact hx List.mem_cons_self
  | primitive p s => exact .primitive rfl
  | list es s ih =>
    refine .list (List.forall₂_same.mpr fun e he => ih e he (fun hmem => ?_) fun g hg => ?_) rfl
    · exact hx (Datum.mem_namesOfAll.mpr ⟨e, he, hmem⟩)
    · exact hd g (Datum.mem_capturedByAll.mpr ⟨e, he, hg⟩)
  | closure i params body f s ih =>
    have hf : f ∈ live := hd f List.mem_cons_self
    have hparams : ∀ y ∈ params, y ≠ x := by
      rintro y hy rfl
      exact hx (List.mem_append_left _ hy)
    refine .closure rfl ⟨rfl, hf⟩ hparams ?_ rfl
    refine List.forall₂_same.mpr fun e he => ih e he (fun hmem => ?_) fun g hg => ?_
    · exact hx (List.mem_append_right _ (Datum.mem_namesOfAll.mpr ⟨e, he, hmem⟩))
    · exact hd g (List.mem_cons_of_mem _ (Datum.mem_capturedByAll.mpr ⟨e, he, hg⟩))

/-- **A value whose closures the name does not occur in is like itself.** -/
theorem value_avoiding_self (hx : x ∉ d.closureNames) (hd : ∀ g ∈ d.captured, g ∈ live) :
    (avoiding x).Value (.on live) (.on live) d d := by
  induction d using Datum.induction with
  | atom a s => exact .atom rfl
  | primitive p s => exact .primitive rfl
  | list es s ih =>
    refine .list (List.forall₂_same.mpr fun e he => ih e he (fun hmem => ?_) fun g hg => ?_) rfl
    · exact hx (Datum.mem_closureNamesOfAll.mpr ⟨e, he, hmem⟩)
    · exact hd g (Datum.mem_capturedByAll.mpr ⟨e, he, hg⟩)
  -- a closure is a program
  | closure i params body f s => exact (code_avoiding_self hx hd).value le_rfl

end Terms

/-! ### Taking a binding out -/

/-- The bindings without that of a given name. -/
def Bindings.erase (b : Bindings) (x : String) : Bindings := ⟨b.entries.filter (·.1 != x)⟩

namespace Bindings

variable (b : Bindings) (x : String)

theorem get?_erase (y : String) : (b.erase x).get? y = if y = x then none else b.get? y := by
  obtain ⟨es⟩ := b
  change (es.filter (·.1 != x)).lookup y = if y = x then none else es.lookup y
  induction es with
  | nil => simp
  | cons e es ih =>
    obtain ⟨z, v⟩ := e
    by_cases hz : z = x
    · rw [List.filter_cons_of_neg (by simpa using hz), ih]
      split
      · rfl
      · next hy => rw [List.lookup_cons, beq_false_of_ne fun h => hy (h.trans hz)]
    · rw [List.filter_cons_of_pos (by simpa using hz), List.lookup_cons, List.lookup_cons, ih]
      by_cases hy : y = z
      · have hyx : y ≠ x := fun h => hz (hy.symm.trans h)
        simp only [if_neg hyx]
      · rw [beq_false_of_ne hy]

/-- What is bound to the name itself is not seen. -/
theorem erase_insert_self (v : Datum) : (b.insert x v).erase x = b.erase x := by
  obtain ⟨es⟩ := b
  refine congrArg mk ?_
  change (insertEntry x v es).filter (·.1 != x) = es.filter (·.1 != x)
  induction es with
  | nil => simp [insertEntry]
  | cons e es ih =>
    obtain ⟨z, u⟩ := e
    rw [insertEntry]
    split
    · next hz => rw [List.filter_cons_of_neg (by simpa using hz),
        List.filter_cons_of_neg (by simpa using hz)]
    · rw [List.filter_cons, List.filter_cons, ih]

/-- Binding another name commutes with taking the binding out. -/
theorem erase_insert_of_ne {y : String} (hy : y ≠ x) (v : Datum) :
    (b.insert y v).erase x = (b.erase x).insert y v := by
  obtain ⟨es⟩ := b
  refine congrArg mk ?_
  change (insertEntry y v es).filter (·.1 != x) = insertEntry y v (es.filter (·.1 != x))
  induction es with
  | nil => simp [insertEntry, hy]
  | cons e es ih =>
    obtain ⟨z, u⟩ := e
    rw [insertEntry]
    split
    · next hz =>
      subst hz
      rw [List.filter_cons_of_pos (by simpa using hy), List.filter_cons_of_pos (by simpa using hy),
        insertEntry, if_pos rfl]
    · next hz =>
      by_cases hzx : z = x
      · rw [List.filter_cons_of_neg (by simpa using hzx),
          List.filter_cons_of_neg (by simpa using hzx), ih]
      · rw [List.filter_cons_of_pos (by simpa using hzx),
          List.filter_cons_of_pos (by simpa using hzx), ih, insertEntry, if_neg hz]

end Bindings

namespace Store

/-- **The store without the binding of a name in a frame.** -/
def erase (s : Store) (f : FrameId) (x : String) : Store := s.modify f (·.erase x)

variable {s t : Store} {f g : FrameId} {x y : String}

theorem modify_comm {F G : Bindings → Bindings} (hFG : ∀ b, F (G b) = G (F b)) :
    (s.modify f F).modify g G = (s.modify g G).modify f F := by
  refine eq_of_reads ?_ rfl (fun h => ?_) fun h => ?_
  · simp only [size_modify]
  · simp only [outer?_modify]
  · simp only [bindings_modify_eq, size_modify]
    split
    · split
      · exact (hFG _).symm
      · rfl
    · rfl

theorem erase_set_self (v : Datum) : (s.set f x v).erase f x = s.erase f x := by
  refine eq_of_reads ?_ rfl (fun h => ?_) fun h => ?_
  · simp only [erase, set, size_modify]
  · simp only [erase, set, outer?_modify]
  · simp only [erase, set, bindings_modify_eq, size_modify]
    split
    · exact Bindings.erase_insert_self _ x v
    · rfl

theorem erase_set_of_ne (hy : y ≠ x) (v : Datum) :
    (s.set g y v).erase f x = (s.erase f x).set g y v :=
  modify_comm fun b => (b.erase_insert_of_ne x hy v).symm

theorem erase_clear : (s.clear g).erase f x = (s.erase f x).clear g := modify_comm fun _ => rfl

theorem erase_finish (policy : FramePolicy) (r : Except EvalError Datum) :
    (policy.finish g r s).erase f x = policy.finish g r (s.erase f x) := by
  cases policy with
  | keepAll => rfl
  | clearFinished =>
    rw [FramePolicy.finish, FramePolicy.finish]
    split
    · rfl
    · exact erase_clear

@[simp]
theorem size_erase : (s.erase f x).frames.size = s.frames.size := size_modify s f _

@[simp]
theorem outer?_erase : (s.erase f x).outer? g = s.outer? g := outer?_modify s f g _

/-- A new frame binds nothing, so there is nothing to take out of it. -/
theorem erase_addFrame (o : Option FrameId) :
    (s.addFrame o .empty).2.erase f x = ((s.erase f x).addFrame o .empty).2 := by
  refine eq_of_reads ?_ rfl (fun h => ?_) fun h => ?_
  · simp only [size_erase, size_addFrame]
  · simp only [outer?_erase, outer?_addFrame, size_erase]
  · rw [bindings_addFrame, erase, bindings_modify_eq, bindings_addFrame, size_addFrame, size_erase,
      erase, bindings_modify_eq]
    by_cases hh : h = s.frames.size
    · rw [if_pos hh, if_pos hh]
      split <;> rfl
    · rw [if_neg hh, if_neg hh]
      by_cases hf : f = h
      · subst hf
        have hlt : f < s.frames.size + 1 ↔ f < s.frames.size := by
          rw [Nat.lt_succ_iff_lt_or_eq, or_iff_left hh]
        simp only [hlt]
      · simp [hf]

/-- Every other name has the value it had, in every frame. -/
theorem get?_bindings_erase :
    ((s.erase f x).bindings g).get? y =
      if g = f ∧ y = x then none else ((s.bindings g).get? y) := by
  rw [erase, bindings_modify_eq]
  by_cases hg : f = g
  · subst hg
    by_cases hf : f < s.frames.size
    · rw [if_pos ⟨rfl, hf⟩, Bindings.get?_erase]
      simp
    · simp [hf, bindings]
  · rw [if_neg fun h => hg h.1, if_neg fun h => hg h.1.symm]

/-- What is left was there. -/
theorem mem_of_mem_erase {e : String × Datum} (he : e ∈ ((s.erase f x).bindings g).entries) :
    e ∈ (s.bindings g).entries := by
  rw [erase, bindings_modify_eq] at he
  split at he
  · exact List.mem_of_mem_filter he
  · exact he

/-- **A lookup of another name finds what it found.** -/
theorem lookup?_erase (hy : y ≠ x) : (s.erase f x).lookup? y g = s.lookup? y g := by
  have hget : ∀ h, ((s.erase f x).bindings h).get? y = (s.bindings h).get? y := by
    intro h
    rw [get?_bindings_erase, if_neg fun hand => hy hand.2]
  have hfound : Option.Rel Eq ((s.erase f x).find? y g) (s.find? y g) := by
    refine find?_rel ?_ ?_ rfl
    · rintro h _ rfl
      rw [Bindings.binds, Bindings.binds, hget]
    · rintro h _ rfl
      rw [outer?_erase]
      cases s.outer? h with
      | none => exact .none
      | some o => exact .some ⟨rfl, Iff.rfl⟩
  rw [lookup?, lookup?]
  generalize (s.erase f x).find? y g = o at hfound
  generalize s.find? y g = p at hfound
  cases hfound with
  | none => rfl
  | some h =>
    subst h
    exact hget _

theorem Extends.erase (h : s.Extends t) : (s.erase f x).Extends (t.erase f x) where
  size_le := by
    rw [size_erase, size_erase]
    exact h.size_le
  closures_le := h.closures_le
  frame_eq g hg := by
    rw [size_erase] at hg
    have heq := h.frame_eq g hg
    simp only [Store.erase, modify, Array.getElem?_modify, heq]

end Store

/-! ### Stores that differ in the binding -/

/-- The comparison of two evaluations of programs that avoid a name and capture frames of
a given set. Nothing is renamed. -/
def Comparison.avoiding (policy : FramePolicy) (live : Set FrameId) (x : String) : Comparison :=
  ⟨.avoiding x, .on live, .same, policy, policy⟩

variable {policy : FramePolicy} {live : Set FrameId} {f : FrameId} {x : String} {w : Pairing}
  {s t : Store}

/-- **Stores that are the same but for the binding of a name in a frame**, and in which no
closure that can be reached uses the name. -/
structure DifferAt (policy : FramePolicy) (live : Set FrameId) (f : FrameId) (x : String)
    (w : Pairing) (s t : Store) : Prop where
  erase_eq : s.erase f x = t.erase f x
  paired : Paired (.avoiding policy live x) w (s.erase f x) (t.erase f x)

namespace DifferAt

/-- Like values are equal, since nothing is renamed. -/
theorem eq_of_value (h : DifferAt policy live f x w s t) {v v' : Datum}
    (hv : (Terms.avoiding x).Value (.on live) w v v') : v = v' := by
  have hw : w ≤ .renumbering id := h.paired.le_limit.trans Pairing.same_le_renumbering_id
  rw [hv.eq_renumber (fun _ _ hab => hab) (h.paired.base_le.trans hw) hw, v.renumber_id]

theorem eq_of_outcome (h : DifferAt policy live f x w s t) {r r' : Except EvalError Datum}
    (hr : (Terms.avoiding x).Outcome (.on live) ((Terms.avoiding x).Value (.on live) w) r r') :
    r = r' := by
  have hw : w ≤ .renumbering id := h.paired.le_limit.trans Pairing.same_le_renumbering_id
  rw [hr.eq_renumberResult (fun _ _ hab => hab) (h.paired.base_le.trans hw) hw, renumberResult_id]

theorem eq_of_frames (h : DifferAt policy live f x w s t) {g g' : FrameId}
    (hg : w.frames g g') : g = g' :=
  h.paired.le_limit.1 g g' hg

theorem size_eq (h : DifferAt policy live f x w s t) : s.frames.size = t.frames.size := by
  rw [← Store.size_erase (s := s), h.erase_eq, Store.size_erase]

variable (policy live f x) in
/-- **Stores that differ in such a binding are a correspondence.** -/
def correspondence : Correspondence where
  terms := .avoiding x
  base := .on live
  left := policy
  right := policy
  Fits := DifferAt policy live f x
  base_le h := h.paired.base_le
  closures_inj h := h.paired.closures.inj
  lookup {w s t g g' y a b} h hg hy hspan := by
    rw [← Store.lookup?_erase (s := s) (f := f) hy, ← Store.lookup?_erase (s := t) (f := f) hy]
    refine optionRel_imp ?_ (h.paired.lookup? hg _)
    exact fun _ _ hv => hv.withSpan hspan
  set h hg hy hv := by
    refine ⟨?_, ?_⟩
    · rw [Store.erase_set_of_ne hy, Store.erase_set_of_ne hy, h.erase_eq, h.eq_of_frames hg,
        h.eq_of_value hv]
    · rw [Store.erase_set_of_ne hy, Store.erase_set_of_ne hy]
      exact h.paired.set hg _ hv
  addFrame {w s t g g'} h hg := by
    refine ⟨_, Paired.le_withNextFrames w (s.erase f x) (t.erase f x), ?_, ?_, ?_⟩
    · rw [← Store.size_erase (s := s) (f := f) (x := x),
        ← Store.size_erase (s := t) (f := f) (x := x)]
      exact Or.inr ⟨rfl, rfl⟩
    · rw [Store.erase_addFrame, Store.erase_addFrame, h.erase_eq, h.eq_of_frames hg]
    · rw [Store.erase_addFrame, Store.erase_addFrame]
      exact h.paired.addFrame (.some hg)
  addClosure {w s t} h := by
    refine ⟨_, Paired.le_withNextClosures w (s.erase f x) (t.erase f x), Or.inr ⟨rfl, rfl⟩, ?_,
      h.paired.addClosure⟩
    exact congrArg (fun u => u.addClosure.2) h.erase_eq
  finish {w w' s t s' t' r r'} h hw hnew h' hs ht hresult := by
    have hsize := h.size_eq
    have heq := h'.eq_of_outcome hresult
    have hnew' : w'.frames (s.erase f x).frames.size (t.erase f x).frames.size := by
      rwa [Store.size_erase, Store.size_erase]
    obtain ⟨w'', hw'', hpaired, hresult'⟩ := h.paired.finish hw hnew' h'.paired hs.erase ht.erase
      hresult
    rw [Store.size_erase, Store.size_erase] at hpaired
    refine ⟨w'', hw'', ⟨?_, ?_⟩, hresult'⟩
    · rw [Store.erase_finish, Store.erase_finish, h'.erase_eq, hsize, heq]
    · rw [Store.erase_finish, Store.erase_finish]
      exact hpaired

/-- Binding the name makes such a difference, if no frame of the set refers out of it and
the closures bound in these frames do not use the name. -/
theorem of_set (hlive : s.Closed live)
    (hx : ∀ g ∈ live, ∀ e ∈ (s.bindings g).entries, x ∉ e.2.closureNames) (v : Datum) :
    DifferAt policy live f x (.on live) s (s.set f x v) := by
  refine ⟨(Store.erase_set_self v).symm, ?_⟩
  rw [Store.erase_set_self]
  refine ⟨?_, Tracks.eq_eq_eq_iff.mpr rfl, ?_, ?_, fun hne => absurd rfl hne⟩
  · refine ⟨fun _ _ h => h, fun _ _ h => h.1, ?_, ?_, fun _ => rfl⟩
    · rintro a _ a' _ ⟨rfl, -⟩ ⟨rfl, -⟩
      exact Iff.rfl
    · rintro a _ ⟨rfl, ha⟩
      rcases Nat.lt_or_ge a (s.erase f x).frames.size with hlt | hge
      · exact Or.inl ⟨hlt, hlt⟩
      · exact Or.inr ⟨⟨rfl, ha⟩, _, (Nat.add_sub_of_le hge).symm, (Nat.add_sub_of_le hge).symm⟩
  · rintro g _ ⟨rfl, hg⟩
    rw [Store.outer?_erase]
    rcases ho : s.outer? g with - | o
    · exact .none
    · exact .some ⟨⟨rfl, hlive.outer_mem g hg o ho⟩, Iff.rfl⟩
  · rintro g _ ⟨rfl, hg⟩
    refine List.forall₂_same.mpr fun e he => ⟨rfl, ?_⟩
    have he := Store.mem_of_mem_erase he
    refine Terms.value_avoiding_self (hx g hg e he) fun h hh => ?_
    exact hlive.captured_mem g hg h (Bindings.mem_captured.mpr ⟨e, he, hh⟩)

end DifferAt

/-! ### Evaluation -/

/-- **Stores that are the same but for a name in a frame.** -/
structure Store.SameBut (f : FrameId) (x : String) (s t : Store) : Prop where
  size_eq : s.frames.size = t.frames.size
  next_eq : s.nextClosure = t.nextClosure
  /-- All other frames are the same. -/
  frame_eq : ∀ g, g ≠ f → s.frames[g]? = t.frames[g]?
  /-- The frame has the same link outward. -/
  outer_eq : s.outer? f = t.outer? f
  /-- All other names have the same value in the frame, or none. -/
  get?_eq : ∀ y, y ≠ x → (s.bindings f).get? y = (t.bindings f).get? y

theorem Store.sameBut_of_erase_eq (h : s.erase f x = t.erase f x) : s.SameBut f x t where
  size_eq := by rw [← Store.size_erase (s := s) (f := f) (x := x), h, Store.size_erase]
  next_eq := by
    change (s.erase f x).nextClosure = (t.erase f x).nextClosure
    rw [h]
  frame_eq g hg := by
    have heq := congrArg (fun u : Store => u.frames[g]?) h
    simpa only [Store.erase, Store.getElem?_modify_of_ne _ hg] using heq
  outer_eq := by
    rw [← Store.outer?_erase (s := s) (f := f) (x := x), h, Store.outer?_erase]
  get?_eq y hy := by
    have heq := congrArg (fun u : Store => (u.bindings f).get? y) h
    simpa only [Store.get?_bindings_erase, hy, and_false, if_false] using heq

/-- A name that is not among those that may change has the value it had, in every frame
that was there. -/
theorem Store.Changes.get?_bindings_eq {names : Set String} (h : s.Changes f names t)
    {g : FrameId} (hg : g < s.frames.size) (hx : x ∉ names) :
    (t.bindings g).get? x = (s.bindings g).get? x := by
  by_cases hgf : g = f
  · subst hgf
    exact h.get?_eq hg x hx
  · rw [Store.bindings_eq_of_getElem?_eq (h.frame_eq g hg hgf)]

/-- The frames that a program can get at when it is evaluated in a frame: what can be
reached from that frame and from those that the closures in the program have captured. -/
def Store.InReach (s : Store) (d : Datum) (env g : FrameId) : Prop :=
  s.Reachable {h | h = env ∨ h ∈ d.captured} g

/-- **A binding that nothing refers to cannot be observed.** Let a name occur neither in a
program nor in a closure bound in a frame that the program can get at. Whatever the name
is bound to, and in whatever frame, the program ends if it does without the binding, with
the same result, and leaves a store that is the same but for the name in that frame, where
the name has the value it had. -/
theorem unreferenced_binding_unobservable (policy : FramePolicy) {s : Store} {d : Datum}
    {env : FrameId} {x : String} (hd : x ∉ d.names)
    (hclosures : ∀ g, s.InReach d env g → ∀ e ∈ (s.bindings g).entries, x ∉ e.2.closureNames)
    (f : FrameId) (v : Datum) :
    ((∃ r t, Evaluates policy s d env r t) ↔ ∃ r t, Evaluates policy (s.set f x v) d env r t) ∧
    ∀ r t r' t', Evaluates policy s d env r t → Evaluates policy (s.set f x v) d env r' t' →
      r = r' ∧ t.SameBut f x t' ∧
      (f < s.frames.size → (t.bindings f).get? x = (s.bindings f).get? x ∧
        (t'.bindings f).get? x = some v) := by
  let live : Set FrameId := {g | s.InReach d env g}
  let C := DifferAt.correspondence policy live f x
  have hlive : s.Closed live := ⟨fun g hg _ ho => .outer hg ho, fun g hg _ hh => .captured hg hh⟩
  have hfits : C.Fits (.on live) s (s.set f x v) := .of_set hlive hclosures v
  have hcode : C.Code d d := Terms.code_avoiding_self hd fun g hg => .root (Or.inr hg)
  have henv : (Pairing.on live).frames env env := ⟨rfl, .root (Or.inl rfl)⟩
  refine ⟨C.evaluates_iff hfits hcode henv, fun r t r' t' hl hr => ?_⟩
  obtain ⟨w, -, hends, hresult⟩ := C.evaluates_endsAlike hfits hcode henv hl hr
  refine ⟨hends.eq_of_outcome hresult, Store.sameBut_of_erase_eq hends.erase_eq, fun hf => ?_⟩
  -- neither evaluation binds the name anew
  have hundefined : x ∉ {y | y ∈ d.definedNames} := fun hx => hd (d.definedNames_subset_names hx)
  obtain ⟨_, hl⟩ := hl
  obtain ⟨_, hr⟩ := hr
  constructor
  · exact (eval_confined policy _ d env hl).get?_bindings_eq hf hundefined
  · have hsize : f < (s.set f x v).frames.size := by rwa [Store.size_set]
    rw [(eval_confined policy _ d env hr).get?_bindings_eq hsize hundefined, Store.set,
      Store.bindings_modify s f f _ hf, if_pos rfl, Bindings.get?_insert, if_pos rfl]

/-- `(define r (g t))` with `g` bound to `(lambda (a) (list a k))`, and `k` to the list
`(x)`: the symbol `x` is in the result, and a closure out of reach looks `x` up. Still it
makes no difference that `x` is bound in the root, through which all names are looked up. -/
theorem quoted_name_bound_in_root :
    let n := Span.none
    let g : Datum := .closure 0 ["a"] [.list [.symbol "list" n, .symbol "a" n, .symbol "k" n] n] 0 n
    let other : Datum := .closure 1 [] [.symbol "x" n] 0 n
    let k : Datum := .list [.symbol "x" n] n
    let s : Store := ⟨#[⟨none, ⟨[("list", .primitive .list n), ("g", g), ("k", k)]⟩⟩,
      ⟨some 0, .empty⟩, ⟨some 0, ⟨[("h", other)]⟩⟩], 2⟩
    let d : Datum := .list [.symbol "define" n, .symbol "r" n,
      .list [.symbol "g" n, .boolean true n] n] n
    let v : Datum := .list [.boolean true n, k] n
    ∃ t t', Evaluates .clearFinished s d 1 (.ok v) t ∧
      Evaluates .clearFinished (s.set 0 "x" other) d 1 (.ok v) t' ∧ t.SameBut 0 "x" t' ∧
      (t.bindings 0).get? "x" = none ∧ (t'.bindings 0).get? "x" = some other := by
  intro n g other k s d v
  have hl : Evaluates .clearFinished s d 1 (.ok v)
      ⟨(s.set 1 "r" v).frames.push ⟨some 0, .empty⟩, 2⟩ := ⟨5, by unfold s d v g other k n; cbv⟩
  have hr : Evaluates .clearFinished (s.set 0 "x" other) d 1 (.ok v)
      ⟨((s.set 0 "x" other).set 1 "r" v).frames.push ⟨some 0, .empty⟩, 2⟩ :=
    ⟨5, by unfold s d v g other k n; cbv⟩
  have hlive : s.Closed {0, 1} := by
    constructor
    · rintro f (rfl | rfl) o ho
      · cases ho
      · obtain rfl := Option.some.inj ho
        exact Or.inl rfl
    · rintro f (rfl | rfl) h hh
      · have : h = 0 := by simpa [s, g, k, Store.captured, Store.bindings, Bindings.captured,
          Datum.captured, Datum.capturedByAll] using hh
        exact Or.inl this
      · cases hh
  have hclosures : ∀ f, s.InReach d 1 f → ∀ e ∈ (s.bindings f).entries, "x" ∉ e.2.closureNames := by
    intro f hf e he
    have hroots : {h | h = 1 ∨ h ∈ d.captured} ⊆ ({0, 1} : Set FrameId) := by
      rintro h (rfl | hh)
      · exact Or.inr rfl
      · cases hh
    rcases hf.mem_of_closed hlive hroots with rfl | rfl
    · revert e
      unfold s g k n
      decide
    · cases he
  have hd : "x" ∉ d.names := by
    unfold d n
    decide
  obtain ⟨-, hsame⟩ := unreferenced_binding_unobservable .clearFinished hd hclosures 0 other
  obtain ⟨-, hbut, hx⟩ := hsame _ _ _ _ hl hr
  exact ⟨_, _, hl, hr, hbut, (hx (by decide)).1, (hx (by decide)).2⟩

end SmallLisp
