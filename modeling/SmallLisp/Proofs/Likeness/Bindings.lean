import SmallLisp.Proofs.Likeness.Basic
import SmallLisp.Proofs.Store.Growth

/-!
# Frames with bindings that are alike

Two frames have like bindings when they bind the same names in the same order to like
values (`SmallLisp.Terms.BindingsLike`). Lookups that walk outward through frames with
like bindings and like links find the name at the same step, or not at all
(`SmallLisp.Store.find?_rel`), and find like values (`SmallLisp.Store.lookup?_rel`).
-/

namespace SmallLisp

namespace Terms

variable {T : Terms} {P P' Q Q' : Pairing} {b c : Bindings}

/-- **Bindings that are alike**: the same names in the same order, with like values. -/
def BindingsLike (T : Terms) (P Q : Pairing) (b c : Bindings) : Prop :=
  List.Forall₂ (fun d e => e.1 = d.1 ∧ T.Value P Q d.2 e.2) b.entries c.entries

namespace BindingsLike

theorem empty : T.BindingsLike P Q .empty .empty := .nil

theorem mono (h : T.BindingsLike P Q b c) (hP : P ≤ P') (hQ : Q ≤ Q') :
    T.BindingsLike P' Q' b c :=
  List.Forall₂.imp (fun _ _ hde => ⟨hde.1, hde.2.mono hP hQ⟩) h

theorem get? (h : T.BindingsLike P Q b c) (x : String) :
    Option.Rel (T.Value P Q) (b.get? x) (c.get? x) := by
  obtain ⟨ds⟩ := b
  obtain ⟨es⟩ := c
  change List.Forall₂ _ ds es at h
  change Option.Rel _ (ds.lookup x) (es.lookup x)
  induction h with
  | nil => exact .none
  | @cons d e ds es hde _ ih =>
    obtain ⟨y, v⟩ := d
    obtain ⟨z, v'⟩ := e
    obtain ⟨rfl, hv⟩ := hde
    by_cases hx : x = z
    · subst hx
      simpa using Option.Rel.some hv
    · simpa [List.lookup_cons, beq_false_of_ne hx] using ih

theorem binds_eq (h : T.BindingsLike P Q b c) (x : String) : b.binds x = c.binds x := by
  rw [Bindings.binds, Bindings.binds]
  have hfound := h.get? x
  generalize b.get? x = o at hfound
  generalize c.get? x = p at hfound
  cases hfound <;> rfl

theorem insert (h : T.BindingsLike P Q b c) (x : String) {v v' : Datum}
    (hv : T.Value P Q v v') : T.BindingsLike P Q (b.insert x v) (c.insert x v') := by
  obtain ⟨ds⟩ := b
  obtain ⟨es⟩ := c
  change List.Forall₂ _ ds es at h
  change List.Forall₂ _ (Bindings.insertEntry x v ds) (Bindings.insertEntry x v' es)
  induction h with
  | nil => exact .cons ⟨rfl, hv⟩ .nil
  | @cons d e ds es hde htail ih =>
    obtain ⟨y, u⟩ := d
    obtain ⟨z, u'⟩ := e
    obtain ⟨rfl, hu⟩ := hde
    rw [Bindings.insertEntry, Bindings.insertEntry]
    split
    · exact .cons ⟨rfl, hv⟩ htail
    · exact .cons ⟨rfl, hu⟩ ih

end BindingsLike

end Terms

/-! ### Lookups -/

namespace Store

variable {s t : Store} {R : FrameId → FrameId → Prop} {x : String}

/-- **The nearest frames that bind a name are paired**, if the walks start at paired
frames, and paired frames have paired links and agree on whether they bind the name.
A walk goes on only through links to earlier frames, so paired links have to agree on
that as well. -/
theorem find?_rel (hbinds : ∀ f g, R f g → (s.bindings f).binds x = (t.bindings g).binds x)
    (houter : ∀ f g, R f g →
      Option.Rel (fun o p => R o p ∧ (o < f ↔ p < g)) (s.outer? f) (t.outer? g))
    {f g : FrameId} (hfg : R f g) : Option.Rel R (s.find? x f) (t.find? x g) := by
  induction f using Nat.strong_induction_on generalizing g with
  | _ f ih =>
    rw [find?, find?, ← hbinds f g hfg]
    split
    · exact .some hfg
    · have hlink := houter f g hfg
      generalize s.outer? f = o at hlink
      generalize t.outer? g = p at hlink
      cases hlink with
      | none => exact .none
      | @some o p hop =>
        obtain ⟨hop, hlt⟩ := hop
        -- the links agree on whether they go to earlier frames, so both walks go on or stop
        simp only [← hlt]
        split
        · next ho => exact ih o ho hop
        · exact .none

/-- **Lookups from paired frames find like values.** -/
theorem lookup?_rel {T : Terms} {P Q : Pairing}
    (hbindings : ∀ f g, R f g → T.BindingsLike P Q (s.bindings f) (t.bindings g))
    (houter : ∀ f g, R f g →
      Option.Rel (fun o p => R o p ∧ (o < f ↔ p < g)) (s.outer? f) (t.outer? g))
    {f g : FrameId} (hfg : R f g) :
    Option.Rel (T.Value P Q) (s.lookup? x f) (t.lookup? x g) := by
  have hfound := find?_rel (x := x) (fun f g h => (hbindings f g h).binds_eq x) houter hfg
  rw [lookup?, lookup?]
  generalize s.find? x f = o at hfound
  generalize t.find? x g = p at hfound
  cases hfound with
  | none => exact .none
  | some hfg => exact (hbindings _ _ hfg).get? x

end Store

end SmallLisp
