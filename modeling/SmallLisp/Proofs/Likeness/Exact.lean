import SmallLisp.Proofs.Likeness.Bindings
import SmallLisp.Proofs.Store.Reachable

/-!
# Data that are alike to the span

On exact terms (`SmallLisp.Terms.exact`) like data have equal spans. If moreover nothing
is renamed, they are equal, and what remains of the pairing is a set of frames
(`SmallLisp.Pairing.on`): the frames that may be captured. Being alike is then a
property of a single datum, that all the frames it captures are in the set
(`SmallLisp.Terms.code_exact_on_iff`).

Data that hold no closure are alike to themselves on any pairing
(`SmallLisp.Terms.code_exact_self`). All data that are read from a text are of this kind.
-/

namespace SmallLisp

/-- Frames of a set stand for themselves, and so do all closures. -/
def Pairing.on (live : Set FrameId) : Pairing := ⟨fun f g => f = g ∧ f ∈ live, Eq⟩

namespace Pairing

variable {live live' : Set FrameId} {w : Pairing}

theorem on_le_on_iff : on live ≤ on live' ↔ live ⊆ live' := by
  constructor
  · exact fun h f hf => (h.1 f f ⟨rfl, hf⟩).2
  · exact fun h => ⟨fun f g hfg => ⟨hfg.1, h hfg.2⟩, fun _ _ hij => hij⟩

/-- **A pairing that renames nothing is a set of frames**, if all closures are in it. -/
theorem exists_eq_on (hw : on live ≤ w) (hsame : w ≤ same) :
    ∃ live', live ⊆ live' ∧ w = on live' := by
  have heq : w = on {f | w.frames f f} := by
    ext f g
    · constructor
      · intro hfg
        obtain rfl : f = g := hsame.1 f g hfg
        exact ⟨rfl, hfg⟩
      · rintro ⟨rfl, hf⟩
        exact hf
    · exact ⟨hsame.2 f g, hw.2 f g⟩
  refine ⟨_, ?_, heq⟩
  rw [heq] at hw
  exact on_le_on_iff.mp hw

end Pairing

namespace Terms

/-- The terms on which like data have equal spans. -/
def exact : Terms := ⟨Eq, fun _ => True⟩

variable {P Q : Pairing} {live : Set FrameId}

/-- **Data that hold no closure are alike to themselves.** -/
theorem code_exact_self {d : Datum} (h : d.holdsClosure = false) : exact.Code P d d := by
  induction d using Datum.induction with
  | atom a s => exact .atom (fun _ _ => trivial) rfl
  | primitive p s => exact .primitive rfl
  | list es s ih =>
    refine .list (List.forall₂_same.mpr fun e he => ih e he ?_) rfl
    rw [Datum.holdsClosure_list, List.any_eq_false] at h
    exact Bool.eq_false_iff.mpr (h e he)
  | closure => cases h

/-- **Like data of which nothing is renamed are equal**, and capture frames of the set
only. -/
theorem code_exact_on_iff {d e : Datum} :
    exact.Code (.on live) d e ↔ (∀ g ∈ d.captured, g ∈ live) ∧ d = e := by
  constructor
  · intro h
    refine Code.induction ?_ ?_ ?_ ?_ h
    · rintro a s _ - rfl
      exact ⟨fun g hg => absurd hg List.not_mem_nil, rfl⟩
    · rintro ds es s _ ih rfl
      rw [List.forall₂_and_left, List.forall₂_eq_eq_eq] at ih
      obtain ⟨hcaptured, rfl⟩ := ih
      refine ⟨fun g hg => ?_, rfl⟩
      obtain ⟨d, hd, hg⟩ := Datum.mem_capturedByAll.mp hg
      exact hcaptured d hd g hg
    · rintro p s _ rfl
      exact ⟨fun g hg => absurd hg List.not_mem_nil, rfl⟩
    -- a closure adds the frame that it captured to those of its body
    · rintro i _ params ds es f _ s _ rfl ⟨rfl, hf⟩ - - ih rfl
      rw [List.forall₂_and_left, List.forall₂_eq_eq_eq] at ih
      obtain ⟨hcaptured, rfl⟩ := ih
      refine ⟨fun g hg => ?_, rfl⟩
      rcases List.mem_cons.mp hg with rfl | hg
      · exact hf
      · obtain ⟨d, hd, hg⟩ := Datum.mem_capturedByAll.mp hg
        exact hcaptured d hd g hg
  · rintro ⟨h, rfl⟩
    induction d using Datum.induction with
    | atom a s => exact .atom (fun _ _ => trivial) rfl
    | primitive p s => exact .primitive rfl
    | list es s ih =>
      refine .list (List.forall₂_same.mpr fun e he => ih e he fun g hg => ?_) rfl
      exact h g (Datum.mem_capturedByAll.mpr ⟨e, he, hg⟩)
    | closure i params es f s ih =>
      have hf : f ∈ live := h f List.mem_cons_self
      refine .closure rfl ⟨rfl, hf⟩ (fun _ _ => trivial) ?_ rfl
      refine List.forall₂_same.mpr fun e he => ih e he fun g hg => ?_
      exact h g (List.mem_cons_of_mem _ (Datum.mem_capturedByAll.mpr ⟨e, he, hg⟩))

theorem value_exact_on_iff {d e : Datum} :
    exact.Value (.on live) (.on live) d e ↔ (∀ g ∈ d.captured, g ∈ live) ∧ d = e := by
  rw [← code_exact_on_iff]
  exact ⟨fun h => h.code (fun _ => trivial) le_rfl, fun h => h.value le_rfl⟩

theorem bindingsLike_exact_on_iff {b c : Bindings} :
    exact.BindingsLike (.on live) (.on live) b c ↔ (∀ g ∈ b.captured, g ∈ live) ∧ b = c := by
  obtain ⟨es⟩ := b
  obtain ⟨es'⟩ := c
  have hentries : ∀ e e' : String × Datum,
      (e'.1 = e.1 ∧ exact.Value (.on live) (.on live) e.2 e'.2) ↔
        (∀ g ∈ e.2.captured, g ∈ live) ∧ e = e' := by
    intro e e'
    rw [value_exact_on_iff, Prod.ext_iff]
    constructor
    · exact fun ⟨hname, hcaptured, hvalue⟩ => ⟨hcaptured, hname.symm, hvalue⟩
    · exact fun ⟨hcaptured, hname, hvalue⟩ => ⟨hname.symm, hcaptured, hvalue⟩
  rw [BindingsLike]
  simp only [hentries, Bindings.mk.injEq]
  rw [List.forall₂_and_left, List.forall₂_eq_eq_eq]
  refine and_congr_left' ⟨fun h g hg => ?_, fun h e he g hg => ?_⟩
  · obtain ⟨e, he, hg⟩ := Bindings.mem_captured.mp hg
    exact h e he g hg
  · exact h g (Bindings.mem_captured.mpr ⟨e, he, hg⟩)

/-- Errors that are alike are equal as well. -/
theorem failure_exact_on {e e' : EvalError} (h : exact.Failure (.on live) e e') :
    (∀ g ∈ e.captured, g ∈ live) ∧ e = e' := by
  cases h with
  | notSymbol hfound =>
    obtain ⟨hcaptured, rfl⟩ := code_exact_on_iff.mp hfound
    exact ⟨hcaptured, rfl⟩
  | unbound hspan | application hspan | malformed hspan =>
    obtain rfl := hspan
    exact ⟨fun g hg => absurd hg List.not_mem_nil, rfl⟩

theorem procedureLike_exact_on {p : Procedure} (h : ∀ g ∈ p.captured, g ∈ live) :
    exact.ProcedureLike (.on live) (.on live) p p := by
  cases p with
  | primitive p => exact .primitive p
  | closure c =>
    refine .closure rfl ⟨rfl, h _ List.mem_cons_self⟩ rfl (fun _ _ => trivial) ?_
    refine List.forall₂_same.mpr fun e he => code_exact_on_iff.mpr ⟨fun g hg => ?_, rfl⟩
    exact h g (List.mem_cons_of_mem _ (Datum.mem_capturedByAll.mpr ⟨e, he, hg⟩))

end Terms

end SmallLisp
