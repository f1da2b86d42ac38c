import Mathlib.Data.Set.Basic
import SmallLisp.Proofs.Store.Growth
import SmallLisp.Eval.Error

/-!
# Frames that can be reached

A frame refers to others in two ways: by its link outward, and by the closures among
its values, each of which has captured the frame it was made in. A datum refers to
frames by the closures in it, wherever they stand: in lists, and in the bodies of other
closures (`SmallLisp.Datum.captured`). What can be reached from given frames by such
references is `SmallLisp.Store.Reachable`.

A store in which every reference goes to a frame that is there is well formed
(`SmallLisp.Store.WellFormed`).
-/

namespace SmallLisp

/-! ### Captured frames -/

namespace Datum

mutual

/-- **The frames captured by the closures of a datum**, at any depth. -/
def captured : Datum → List FrameId
  | .atom _ _ => []
  | .list es _ => capturedByAll es
  | .primitive _ _ => []
  | .closure _ _ body frame _ => frame :: capturedByAll body

/-- The frames captured by the closures of several data. -/
def capturedByAll : List Datum → List FrameId
  | [] => []
  | d :: ds => captured d ++ capturedByAll ds

end

theorem mem_capturedByAll {ds : List Datum} {g : FrameId} :
    g ∈ capturedByAll ds ↔ ∃ d ∈ ds, g ∈ d.captured := by
  induction ds with
  | nil => simp [capturedByAll]
  | cons d ds ih => simp [capturedByAll, ih]

/-- A datum that holds no closure captures nothing. -/
theorem captured_eq_nil {d : Datum} (h : d.holdsClosure = false) : d.captured = [] := by
  induction d using Datum.induction with
  | atom | primitive => rfl
  | list es s ih =>
    rw [holdsClosure_list, List.any_eq_false] at h
    refine List.eq_nil_iff_forall_not_mem.mpr fun g hg => ?_
    obtain ⟨e, he, hg⟩ := mem_capturedByAll.mp hg
    rw [ih e he (Bool.eq_false_iff.mpr (h e he))] at hg
    exact List.not_mem_nil hg
  | closure => cases h

end Datum

/-- The frames captured by a procedure. -/
def Procedure.captured : Procedure → List FrameId
  | .primitive _ => []
  | .closure c => c.frame :: Datum.capturedByAll c.body

theorem Datum.captured_of_procedure? {d : Datum} {p : Procedure} (h : d.procedure? = some p) :
    p.captured = d.captured := by
  cases d with
  | atom | list => cases h
  | primitive | closure =>
    obtain rfl := Option.some.inj h
    rfl

/-- The frames captured by the datum that an error carries. -/
def EvalError.captured : EvalError → List FrameId
  | .notSymbol found => found.captured
  | _ => []

/-- The frames captured by a result. -/
def capturedByResult : Except EvalError Datum → List FrameId
  | .ok d => d.captured
  | .error e => e.captured

/-- The frames captured by the values of bindings. -/
def Bindings.captured (b : Bindings) : List FrameId := b.entries.flatMap fun e => e.2.captured

theorem Bindings.mem_captured {b : Bindings} {g : FrameId} :
    g ∈ b.captured ↔ ∃ e ∈ b.entries, g ∈ e.2.captured :=
  List.mem_flatMap

/-! ### Stores -/

namespace Store

/-- The frames captured by the values of a frame. -/
def captured (s : Store) (f : FrameId) : List FrameId := (s.bindings f).captured

/-- **Every frame that is referred to is there.** -/
structure WellFormed (s : Store) : Prop where
  outer_lt : ∀ f o, s.outer? f = some o → o < s.frames.size
  captured_lt : ∀ f, ∀ g ∈ s.captured f, g < s.frames.size

/-- **The frames that can be reached from given ones**, by links outward and through
the closures that are bound. -/
inductive Reachable (s : Store) (roots : Set FrameId) : FrameId → Prop
  | root {f : FrameId} (hf : f ∈ roots) : Reachable s roots f
  | outer {f o : FrameId} (hf : Reachable s roots f) (ho : s.outer? f = some o) :
    Reachable s roots o
  | captured {f g : FrameId} (hf : Reachable s roots f) (hg : g ∈ s.captured f) :
    Reachable s roots g

/-- A set of frames that nothing in it refers out of. -/
structure Closed (s : Store) (live : Set FrameId) : Prop where
  outer_mem : ∀ f ∈ live, ∀ o, s.outer? f = some o → o ∈ live
  captured_mem : ∀ f ∈ live, ∀ g ∈ s.captured f, g ∈ live

/-- Nothing outside of a closed set can be reached from inside. -/
theorem Reachable.mem_of_closed {s : Store} {roots live : Set FrameId} (hlive : s.Closed live)
    (hroots : roots ⊆ live) {g : FrameId} (hg : s.Reachable roots g) : g ∈ live := by
  induction hg with
  | root hf => exact hroots hf
  | outer _ ho ih => exact hlive.outer_mem _ ih _ ho
  | captured _ hg ih => exact hlive.captured_mem _ ih _ hg

theorem WellFormed.closed {s : Store} (h : s.WellFormed) : s.Closed {f | f < s.frames.size} :=
  ⟨fun f _ => h.outer_lt f, fun f _ => h.captured_lt f⟩

end Store

end SmallLisp
