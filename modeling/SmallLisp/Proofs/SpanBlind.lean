import Mathlib
import SmallLisp.Proofs.Correspondence.Eval
import SmallLisp.Proofs.Correspondence.Paired

/-!
# Spans do not matter to evaluation

Data that differ only in their spans have the same erasure
(`SmallLisp.Datum.eraseSpans`), in which every span is `SmallLisp.Span.none`, also those
of the elements of lists and of the bodies of closures. The same goes for errors and for
whole stores. An evaluation sees no more than the erasure of the expression and of the
store, as far as spans are concerned: what it ends with has the same erasure, whatever
the spans were (`SmallLisp.evaluation_blind_to_spans`).

The comparison is the one in which everything stands for itself and all spans are alike.
Then programs are alike exactly if they have the same erasure
(`SmallLisp.code_spanBlind_iff`), and stores are paired exactly if they have
(`SmallLisp.paired_spanBlind_iff`).
-/

namespace SmallLisp

/-! ### Erasure -/

namespace Datum

mutual

/-- **A datum without its spans**, at any depth. -/
def eraseSpans : Datum → Datum
  | .atom a _ => .atom a Span.none
  | .list es _ => .list (eraseAllSpans es) Span.none
  | .primitive p _ => .primitive p Span.none
  | .closure id params body frame _ => .closure id params (eraseAllSpans body) frame Span.none

/-- The data of a list without their spans. -/
def eraseAllSpans : List Datum → List Datum
  | [] => []
  | d :: ds => eraseSpans d :: eraseAllSpans ds

end

theorem eraseAllSpans_eq (ds : List Datum) : eraseAllSpans ds = ds.map eraseSpans := by
  induction ds with
  | nil => rfl
  | cons d ds ih => rw [eraseAllSpans, ih, List.map_cons]

end Datum

/-- An error without its spans. -/
def EvalError.eraseSpans : EvalError → EvalError
  | .unbound name _ => .unbound name Span.none
  | .application fault _ => .application fault Span.none
  | .notSymbol found => .notSymbol found.eraseSpans
  | .malformed fault _ => .malformed fault Span.none

/-- A result without its spans. -/
def eraseResultSpans : Except EvalError Datum → Except EvalError Datum
  | .ok d => .ok d.eraseSpans
  | .error e => .error e.eraseSpans

/-- A procedure without the spans of its body. -/
def Procedure.eraseSpans : Procedure → Procedure
  | .primitive p => .primitive p
  | .closure c => .closure { c with body := c.body.map Datum.eraseSpans }

/-- Bindings without the spans of their values. -/
def Bindings.eraseSpans (b : Bindings) : Bindings :=
  ⟨b.entries.map fun e => (e.1, e.2.eraseSpans)⟩

/-- A frame without the spans of its values. -/
def Frame.eraseSpans (fr : Frame) : Frame := { fr with bindings := fr.bindings.eraseSpans }

/-- **A store without the spans of its values.** -/
def Store.eraseSpans (s : Store) : Store := { s with frames := s.frames.map Frame.eraseSpans }

namespace Store

@[simp]
theorem size_eraseSpans (s : Store) : s.eraseSpans.frames.size = s.frames.size := by
  simp [eraseSpans]

@[simp]
theorem outer?_eraseSpans (s : Store) (f : FrameId) : s.eraseSpans.outer? f = s.outer? f := by
  rw [outer?, outer?, eraseSpans, Array.getElem?_map]
  cases s.frames[f]? <;> rfl

@[simp]
theorem bindings_eraseSpans (s : Store) (f : FrameId) :
    s.eraseSpans.bindings f = (s.bindings f).eraseSpans := by
  rw [bindings, bindings, eraseSpans, Array.getElem?_map]
  cases s.frames[f]? <;> rfl

end Store

/-! ### Alike but for spans -/

theorem forall₂_of_map_eq_map {α β : Type} {F : α → β} {R : α → α → Prop} {as bs : List α}
    (h : as.map F = bs.map F) (hR : ∀ a ∈ as, ∀ b, F a = F b → R a b) : List.Forall₂ R as bs := by
  rw [← List.forall₂_eq_eq_eq, List.forall₂_map_left_iff, List.forall₂_map_right_iff] at h
  induction h with
  | nil => exact .nil
  | cons hab _ ih =>
    have htail := ih fun a ha => hR a (List.mem_cons_of_mem _ ha)
    exact .cons (hR _ List.mem_cons_self _ hab) htail

/-- The terms on which all spans are alike, and all names are allowed. -/
def Terms.spanBlind : Terms := ⟨fun _ _ => True, fun _ => True⟩

open Terms (spanBlind)

/-- **Programs are alike but for their spans exactly if they have the same
erasure.** -/
theorem code_spanBlind_iff {d e : Datum} :
    spanBlind.Code .same d e ↔ d.eraseSpans = e.eraseSpans := by
  constructor
  · intro h
    refine Terms.Code.induction ?_ ?_ ?_ ?_ h
    · exact fun _ _ => rfl
    · intro ds es s t ih _
      rw [Datum.eraseSpans, Datum.eraseSpans, Datum.eraseAllSpans_eq, Datum.eraseAllSpans_eq,
        map_eq_map_of_forall₂ ih]
    · exact fun _ => rfl
    · rintro i _ params ds es f _ s t rfl rfl - - ih -
      rw [Datum.eraseSpans, Datum.eraseSpans, Datum.eraseAllSpans_eq, Datum.eraseAllSpans_eq,
        map_eq_map_of_forall₂ ih]
  -- the erasure of `e` has the same head, and that is the head of `e`
  · induction d using Datum.induction generalizing e with
    | atom a s =>
      intro h
      cases e with
      | atom b t =>
        obtain ⟨rfl, -⟩ := Datum.atom.inj h
        exact .atom (fun _ _ => trivial) trivial
      | list | primitive | closure => cases h
    | list ds s ih =>
      intro h
      cases e with
      | list es t =>
        rw [Datum.eraseSpans, Datum.eraseSpans, Datum.eraseAllSpans_eq, Datum.eraseAllSpans_eq] at h
        obtain ⟨hds, -⟩ := Datum.list.inj h
        exact .list (forall₂_of_map_eq_map hds fun d hd e hde => ih d hd hde) trivial
      | atom | primitive | closure => cases h
    | primitive p s =>
      intro h
      cases e with
      | primitive q t =>
        obtain ⟨rfl, -⟩ := Datum.primitive.inj h
        exact .primitive trivial
      | atom | list | closure => cases h
    | closure i params ds f s ih =>
      intro h
      cases e with
      | closure j params' es g t =>
        rw [Datum.eraseSpans, Datum.eraseSpans, Datum.eraseAllSpans_eq, Datum.eraseAllSpans_eq] at h
        obtain ⟨hi, rfl, hds, hf, -⟩ := Datum.closure.inj h
        exact .closure hi hf (fun _ _ => trivial)
          (forall₂_of_map_eq_map hds fun d hd e hde => ih d hd hde) trivial
      | atom | list | primitive => cases h

/-- Values are programs here: no pairs are ever added. -/
theorem value_spanBlind_iff {d e : Datum} :
    spanBlind.Value .same .same d e ↔ d.eraseSpans = e.eraseSpans := by
  rw [← code_spanBlind_iff]
  exact ⟨fun h => h.code (fun _ => trivial) le_rfl, fun h => h.value le_rfl⟩

theorem procedureLike_spanBlind {p p' : Procedure} (h : p.eraseSpans = p'.eraseSpans) :
    spanBlind.ProcedureLike .same .same p p' := by
  cases p with
  | primitive p =>
    cases p' with
    | primitive p' =>
      obtain rfl := Procedure.primitive.inj h
      exact .primitive p
    | closure => cases h
  | closure c =>
    cases p' with
    | primitive => cases h
    | closure c' =>
      obtain ⟨hid, hparams, hbody, hframe⟩ := Closure.mk.inj (Procedure.closure.inj h)
      exact .closure hid hframe hparams.symm (fun _ _ => trivial)
        (forall₂_of_map_eq_map hbody fun d _ e hde => code_spanBlind_iff.mpr hde)

theorem bindingsLike_spanBlind_iff {b c : Bindings} :
    spanBlind.BindingsLike .same .same b c ↔ b.eraseSpans = c.eraseSpans := by
  rw [Bindings.eraseSpans, Bindings.eraseSpans, Bindings.mk.injEq]
  constructor
  · intro h
    refine map_eq_map_of_forall₂ (List.Forall₂.imp (fun d e hde => ?_) h)
    rw [hde.1, value_spanBlind_iff.mp hde.2]
  · intro h
    refine forall₂_of_map_eq_map h fun d _ e hde => ?_
    obtain ⟨hname, hvalue⟩ := Prod.mk.inj hde
    exact ⟨hname.symm, value_spanBlind_iff.mpr hvalue⟩

/-- Results that are alike but for their spans. -/
theorem eraseResultSpans_eq {r r' : Except EvalError Datum}
    (h : spanBlind.Outcome .same (spanBlind.Value .same .same) r r') :
    eraseResultSpans r = eraseResultSpans r' := by
  cases h with
  | ok hv => rw [eraseResultSpans, eraseResultSpans, value_spanBlind_iff.mp hv]
  | error he =>
    rw [eraseResultSpans, eraseResultSpans]
    cases he with
    | unbound | application | malformed => rfl
    | notSymbol hfound =>
      rw [EvalError.eraseSpans, EvalError.eraseSpans, code_spanBlind_iff.mp hfound]

/-! ### Stores -/

/-- The comparison in which everything stands for itself, whatever its spans. -/
def Comparison.spanBlind (policy : FramePolicy) : Comparison :=
  ⟨Terms.spanBlind, .same, .same, policy, policy⟩

/-- **Stores are paired frame by frame exactly if they have the same erasure.** -/
theorem paired_spanBlind_iff {policy : FramePolicy} {s t : Store} :
    Paired (.spanBlind policy) .same s t ↔ s.eraseSpans = t.eraseSpans := by
  constructor
  · intro h
    refine Store.eq_of_reads ?_ (Tracks.eq_eq_eq_iff.mp h.closures) (fun f => ?_) fun f => ?_
    · rw [Store.size_eraseSpans, Store.size_eraseSpans]
      exact Tracks.eq_eq_eq_iff.mp h.frames
    · rw [Store.outer?_eraseSpans, Store.outer?_eraseSpans]
      have houter := h.outer f f rfl
      generalize s.outer? f = o at houter
      generalize t.outer? f = p at houter
      cases houter with
      | none => rfl
      | some hop => exact congrArg some hop.1
    · rw [Store.bindings_eraseSpans, Store.bindings_eraseSpans]
      exact bindingsLike_spanBlind_iff.mp (h.bindings f f rfl)
  · intro h
    have hsize : s.frames.size = t.frames.size := by
      rw [← Store.size_eraseSpans s, ← Store.size_eraseSpans t, h]
    have hnext : s.nextClosure = t.nextClosure := (Store.mk.inj h).2
    refine ⟨Tracks.eq_eq_eq_iff.mpr hsize, Tracks.eq_eq_eq_iff.mpr hnext, ?_, ?_,
      fun hne => absurd rfl hne⟩
    · rintro f _ rfl
      have houter : s.outer? f = t.outer? f := by
        rw [← Store.outer?_eraseSpans s, ← Store.outer?_eraseSpans t, h]
      rw [houter]
      cases t.outer? f with
      | none => exact .none
      | some o => exact .some ⟨rfl, Iff.rfl⟩
    · rintro f _ rfl
      refine bindingsLike_spanBlind_iff.mpr ?_
      rw [← Store.bindings_eraseSpans, ← Store.bindings_eraseSpans, h]

/-! ### Evaluation -/

/-- Ends that are the same but for spans: results and stores with the same erasure, and
if the results are errors, with the same text. -/
structure SameButSpans (o p : Except EvalError Datum × Store) : Prop where
  result : eraseResultSpans o.1 = eraseResultSpans p.1
  message : ∀ e e', o.1 = .error e → p.1 = .error e' → e.message = e'.message
  store : o.2.eraseSpans = p.2.eraseSpans

/-- Ends that are alike but for spans have the same erasure: between the identity and
the identity there is no other pairing. -/
theorem sameButSpans_of_endsAlike {policy : FramePolicy} {o p : Except EvalError Datum × Store}
    (h : (Paired.correspondence (.spanBlind policy)).EndsAlike .same
      (Paired.correspondence (.spanBlind policy)).Value o p) : SameButSpans o p := by
  obtain ⟨w, hw, hfits, hresult⟩ := h
  obtain rfl : Pairing.same = w := le_antisymm hw hfits.le_limit
  refine ⟨eraseResultSpans_eq hresult, fun e e' ho hp => ?_, paired_spanBlind_iff.mp hfits⟩
  rw [ho, hp] at hresult
  cases hresult with
  | error he => exact he.message_eq

/-- **Spans do not matter to evaluation.** Two evaluations that start alike but for
spans both end or neither does, and they end alike but for spans; and so for two
applications. -/
theorem evaluation_blind_to_spans (policy : FramePolicy) {s t : Store}
    (hst : s.eraseSpans = t.eraseSpans) :
    (∀ d e f, Datum.eraseSpans d = Datum.eraseSpans e →
      ((∃ r s', Evaluates policy s d f r s') ↔ ∃ r t', Evaluates policy t e f r t') ∧
      ∀ r s' r' t', Evaluates policy s d f r s' → Evaluates policy t e f r' t' →
        SameButSpans (r, s') (r', t')) ∧
    (∀ p p' args args' a b, Procedure.eraseSpans p = Procedure.eraseSpans p' →
      args.map Datum.eraseSpans = args'.map Datum.eraseSpans →
      ((∃ r s', Applies policy s p args a r s') ↔ ∃ r t', Applies policy t p' args' b r t') ∧
      ∀ r s' r' t', Applies policy s p args a r s' → Applies policy t p' args' b r' t' →
        SameButSpans (r, s') (r', t')) := by
  let C := Paired.correspondence (.spanBlind policy)
  have hfits : C.Fits .same s t := paired_spanBlind_iff.mpr hst
  constructor
  · intro d e f hde
    have hcode : C.Code d e := code_spanBlind_iff.mpr hde
    refine ⟨C.evaluates_iff hfits hcode rfl, fun r s' r' t' hl hr => ?_⟩
    exact sameButSpans_of_endsAlike (C.evaluates_endsAlike hfits hcode rfl hl hr)
  · intro p p' args args' a b hp hargs
    have hprocedures : C.terms.ProcedureLike C.base .same p p' := procedureLike_spanBlind hp
    have hvalues : List.Forall₂ (C.Value .same) args args' :=
      forall₂_of_map_eq_map hargs fun d _ e hde => value_spanBlind_iff.mpr hde
    refine ⟨C.applies_iff hfits hprocedures hvalues trivial, fun r s' r' t' hl hr => ?_⟩
    exact sameButSpans_of_endsAlike (C.applies_endsAlike hfits hprocedures hvalues trivial hl hr)

/-- `(if (= x (quote (k))) (lambda () x))`, where `x` is the list `(k)`: the two lists
that are compared have other spans within either evaluation, too. -/
theorem equality_blind_to_spans :
    let n := Span.none
    let x (a b : Span) : Datum := .list [.symbol "k" a] b
    let s (a b : Span) : Store :=
      ⟨#[⟨none, ⟨[("=", .primitive .equal n), ("x", x a b)]⟩⟩], 0⟩
    let d (a b : Span) : Datum := .list [.symbol "if" a,
      .list [.symbol "=" b, .symbol "x" a, .list [.symbol "quote" b, x b a] b] n,
      .list [.symbol "lambda" n, .list [] a, .symbol "x" b] b] a
    ∃ r s' r' t', Evaluates .clearFinished (s n n) (d n n) 0 r s' ∧
      Evaluates .clearFinished (s ⟨1, 2⟩ ⟨0, 3⟩) (d ⟨4, 6⟩ ⟨7, 9⟩) 0 r' t' ∧
      SameButSpans (r, s') (r', t') := by
  intro n x s d
  have hl : Evaluates .clearFinished (s n n) (d n n) 0
      (.ok (.closure 0 [] [.symbol "x" n] 0 n)) ⟨(s n n).frames, 1⟩ :=
    ⟨5, by unfold s d x n; cbv⟩
  have hr : Evaluates .clearFinished (s ⟨1, 2⟩ ⟨0, 3⟩) (d ⟨4, 6⟩ ⟨7, 9⟩) 0
      (.ok (.closure 0 [] [.symbol "x" ⟨7, 9⟩] 0 ⟨7, 9⟩)) ⟨(s ⟨1, 2⟩ ⟨0, 3⟩).frames, 1⟩ :=
    ⟨5, by unfold s d x n; cbv⟩
  have hst : (s n n).eraseSpans = (s ⟨1, 2⟩ ⟨0, 3⟩).eraseSpans := by
    unfold s x n
    cbv
  have hblind := (evaluation_blind_to_spans .clearFinished hst).1 (d n n) (d ⟨4, 6⟩ ⟨7, 9⟩) 0 rfl
  exact ⟨_, _, _, _, hl, hr, hblind.2 _ _ _ _ hl hr⟩

end SmallLisp
