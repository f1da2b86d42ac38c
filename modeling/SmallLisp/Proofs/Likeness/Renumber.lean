import SmallLisp.Proofs.Correspondence.Paired
import SmallLisp.Proofs.Likeness.Exact

/-!
# Closures with other identities

The identities of closures are numbers that are given out in order, so what happens
earlier shows in the identities of all closures made later. To say that it shows nowhere
else, a datum or a store is renumbered by a function on identities
(`SmallLisp.Datum.renumber`, `SmallLisp.Store.renumber`).

If like data have equal spans, and all pairs of frames are of the form `f, f` and all
pairs of identities of the form `i, ρ i` (`SmallLisp.Pairing.renumbering`), then the
second of two like data is the first one, renumbered by `ρ`
(`SmallLisp.Terms.Value.eq_renumber`), and the same is true of stores whose frames are all
paired (`SmallLisp.Paired.eq_renumber`). With the identity for `ρ` it is the first one
itself.
-/

namespace SmallLisp

theorem eq_map_of_forall₂ {α β : Type} {F : α → β} {as : List α} {bs : List β}
    (h : List.Forall₂ (fun a b => b = F a) as bs) : bs = as.map F := by
  induction h with
  | nil => rfl
  | cons hab _ ih => rw [hab, ih, List.map_cons]

/-! ### Renumbering -/

namespace Datum

mutual

/-- **A datum with its closures renumbered**, at any depth. -/
def renumber (ρ : Nat → Nat) : Datum → Datum
  | .atom a s => .atom a s
  | .list es s => .list (renumberAll ρ es) s
  | .primitive p s => .primitive p s
  | .closure id params body frame s => .closure (ρ id) params (renumberAll ρ body) frame s

/-- The data of a list with their closures renumbered. -/
def renumberAll (ρ : Nat → Nat) : List Datum → List Datum
  | [] => []
  | d :: ds => renumber ρ d :: renumberAll ρ ds

end

theorem renumberAll_eq (ρ : Nat → Nat) (ds : List Datum) :
    renumberAll ρ ds = ds.map (renumber ρ) := by
  induction ds with
  | nil => rfl
  | cons d ds ih => rw [renumberAll, ih, List.map_cons]

/-- Nothing happens if every identity stays. -/
theorem renumber_id (d : Datum) : d.renumber id = d := by
  have hlist : ∀ ds : List Datum, (∀ e ∈ ds, e.renumber id = e) → renumberAll id ds = ds := by
    intro ds h
    rw [renumberAll_eq, List.map_congr_left h, List.map_id']
  induction d using Datum.induction with
  | atom | primitive => rfl
  | list es s ih => rw [renumber, hlist es ih]
  | closure i params body f s ih => rw [renumber, hlist body ih, id_eq]

theorem holdsClosure_renumber (ρ : Nat → Nat) (d : Datum) :
    (d.renumber ρ).holdsClosure = d.holdsClosure := by
  induction d using Datum.induction with
  | atom | primitive | closure => rfl
  | list es s ih =>
    rw [renumber, holdsClosure_list, holdsClosure_list, renumberAll_eq, List.any_map,
      Bool.eq_iff_iff, List.any_eq_true, List.any_eq_true]
    exact exists_congr fun e => and_congr_right fun he => by rw [Function.comp_apply, ih e he]

end Datum

/-- An error with the closures in it renumbered. -/
def EvalError.renumber (ρ : Nat → Nat) : EvalError → EvalError
  | .notSymbol found => .notSymbol (found.renumber ρ)
  | e => e

/-- A result with the closures in it renumbered. -/
def renumberResult (ρ : Nat → Nat) : Except EvalError Datum → Except EvalError Datum
  | .ok d => .ok (d.renumber ρ)
  | .error e => .error (e.renumber ρ)

/-- Whether a closure escapes does not depend on its identity. -/
theorem escapes_renumberResult (ρ : Nat → Nat) (r : Except EvalError Datum) :
    escapes (renumberResult ρ r) = escapes r := by
  cases r with
  | ok d => exact d.holdsClosure_renumber ρ
  | error e => rfl

theorem EvalError.renumber_id (e : EvalError) : e.renumber id = e := by
  cases e with
  | notSymbol found => rw [renumber, found.renumber_id]
  | unbound | application | malformed => rfl

theorem renumberResult_id (r : Except EvalError Datum) : renumberResult id r = r := by
  cases r with
  | ok d => rw [renumberResult, d.renumber_id]
  | error e => rw [renumberResult, e.renumber_id]

/-- Bindings with the closures among their values renumbered. -/
def Bindings.renumber (ρ : Nat → Nat) (b : Bindings) : Bindings :=
  ⟨b.entries.map fun e => (e.1, e.2.renumber ρ)⟩

/-- A frame with the closures among its values renumbered. -/
def Frame.renumber (ρ : Nat → Nat) (fr : Frame) : Frame :=
  { fr with bindings := fr.bindings.renumber ρ }

/-- **A store with all closures renumbered**, the next one to be made among them. -/
def Store.renumber (ρ : Nat → Nat) (s : Store) : Store :=
  ⟨s.frames.map (Frame.renumber ρ), ρ s.nextClosure⟩

namespace Store

variable (ρ : Nat → Nat) (s : Store)

@[simp]
theorem size_renumber : (s.renumber ρ).frames.size = s.frames.size := by simp [renumber]

@[simp]
theorem outer?_renumber (f : FrameId) : (s.renumber ρ).outer? f = s.outer? f := by
  rw [outer?, outer?, renumber, Array.getElem?_map]
  cases s.frames[f]? <;> rfl

@[simp]
theorem bindings_renumber (f : FrameId) :
    (s.renumber ρ).bindings f = (s.bindings f).renumber ρ := by
  rw [bindings, bindings, renumber, Array.getElem?_map]
  cases s.frames[f]? <;> rfl

end Store

/-! ### Like data that are renumbered -/

/-- **Every frame stands for itself, and the closure `i` for the closure `ρ i`.** -/
def Pairing.renumbering (ρ : Nat → Nat) : Pairing := ⟨Eq, fun i j => j = ρ i⟩

theorem Bindings.renumber_eq_empty_iff {ρ : Nat → Nat} {b : Bindings} :
    b.renumber ρ = .empty ↔ b = .empty := by
  obtain ⟨es⟩ := b
  simp [renumber, empty]

theorem Pairing.same_le_renumbering_id : Pairing.same ≤ .renumbering id :=
  ⟨fun _ _ h => h, fun _ _ h => h.symm⟩

namespace Terms

variable {T : Terms} {P Q : Pairing} {ρ : Nat → Nat}

section

variable (hT : ∀ a b, T.span a b → a = b) (hP : P ≤ .renumbering ρ)

include hT hP

theorem Code.eq_renumber {d e : Datum} (h : T.Code P d e) : e = d.renumber ρ := by
  refine Code.induction ?_ ?_ ?_ ?_ h
  · intro a s t _ hspan
    rw [hT s t hspan]
    rfl
  · intro ds es s t ih hspan
    rw [hT s t hspan, Datum.renumber, Datum.renumberAll_eq, eq_map_of_forall₂ ih]
  · intro p s t hspan
    rw [hT s t hspan]
    rfl
  · intro i j params ds es f g s t hid hframe _ _ ih hspan
    obtain rfl : f = g := hP.1 f g hframe
    obtain rfl : j = ρ i := hP.2 i j hid
    rw [hT s t hspan, Datum.renumber, Datum.renumberAll_eq, eq_map_of_forall₂ ih]

/-- **Like values are renumbered ones.** -/
theorem Value.eq_renumber (hQ : Q ≤ .renumbering ρ) {d e : Datum} (h : T.Value P Q d e) :
    e = d.renumber ρ := by
  refine Value.induction ?_ ?_ ?_ ?_ h
  · intro a s t hspan
    rw [hT s t hspan]
    rfl
  · intro ds es s t ih hspan
    rw [hT s t hspan, Datum.renumber, Datum.renumberAll_eq, eq_map_of_forall₂ ih]
  · intro p s t hspan
    rw [hT s t hspan]
    rfl
  · intro i j params ds es f g s t hid hframe _ hbody hspan
    obtain rfl : f = g := hQ.1 f g hframe
    obtain rfl : j = ρ i := hQ.2 i j hid
    have hbodies := hbody.imp fun _ _ hde => hde.eq_renumber hT hP
    rw [hT s t hspan, Datum.renumber, Datum.renumberAll_eq, eq_map_of_forall₂ hbodies]

theorem Failure.eq_renumber {e e' : EvalError} (h : T.Failure P e e') : e' = e.renumber ρ := by
  cases h with
  | notSymbol hfound => rw [hfound.eq_renumber hT hP, EvalError.renumber]
  | unbound hspan | application hspan | malformed hspan =>
    rw [hT _ _ hspan]
    rfl

theorem Outcome.eq_renumberResult (hQ : Q ≤ .renumbering ρ) {r r' : Except EvalError Datum}
    (h : T.Outcome P (T.Value P Q) r r') : r' = renumberResult ρ r := by
  cases h with
  | ok hv => rw [hv.eq_renumber hT hP hQ, renumberResult]
  | error he => rw [he.eq_renumber hT hP, renumberResult]

theorem BindingsLike.eq_renumber (hQ : Q ≤ .renumbering ρ) {b c : Bindings}
    (h : T.BindingsLike P Q b c) : c = b.renumber ρ := by
  obtain ⟨es⟩ := c
  rw [Bindings.renumber, Bindings.mk.injEq]
  refine eq_map_of_forall₂ (List.Forall₂.imp (fun d e hde => ?_) h)
  rw [← hde.2.eq_renumber hT hP hQ, ← hde.1]

end

end Terms

/-! ### Stores -/

/-- **Paired stores with all frames paired are renumbered ones.** -/
theorem Paired.eq_renumber {K : Comparison} {w : Pairing} {s t : Store} {ρ : Nat → Nat}
    (hT : ∀ a b, K.terms.span a b → a = b) (hframes : ∀ f, K.base.frames f f)
    (hlimit : K.limit = .renumbering ρ) (h : Paired K w s t) : t = s.renumber ρ := by
  have hw : w ≤ .renumbering ρ := hlimit ▸ h.le_limit
  have hbase : K.base ≤ .renumbering ρ := h.base_le.trans hw
  have hself : ∀ f, w.frames f f := fun f => h.frames.base_le f f (hframes f)
  -- the next numbers that are given out can be paired, so they are what `ρ` says
  have hsize : s.frames.size = t.frames.size := by
    have hnext := h.frames.ahead 0
    rw [hlimit] at hnext
    exact hnext
  have hnext : t.nextClosure = ρ s.nextClosure := by
    have hnext := h.closures.ahead 0
    rw [hlimit] at hnext
    exact hnext
  refine Store.eq_of_reads ?_ hnext (fun f => ?_) fun f => ?_
  · rw [Store.size_renumber, hsize]
  · rw [Store.outer?_renumber]
    have houter := h.outer f f (hself f)
    generalize s.outer? f = o at houter
    generalize t.outer? f = p at houter
    cases houter with
    | none => rfl
    | some hop => exact congrArg some (hw.1 _ _ hop.1).symm
  · rw [Store.bindings_renumber]
    exact (h.bindings f f (hself f)).eq_renumber hT hbase hw

end SmallLisp
