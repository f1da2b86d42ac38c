import Mathlib.Data.Set.Function
import SmallLisp.Proofs.Stock.Eval
import SmallLisp.Proofs.Store.Shadowing

/-!
# Taking stock of frames and closures

A frame may bind a closure that was made in it, so following frames to closures and closures to
frames need not come to an end. Nothing about all that can be reached is therefore shown by
walking through it. An *inventory* is put beside the store instead (`SmallLisp.Inventory`): it
lists every frame and every closure that there is, those in the elements of lists and in the
bodies of other closures among them (`SmallLisp.Datum.closures`).

What is wanted of the store is then a condition on the inventory
(`SmallLisp.Inventory.Accounts`): links go to earlier frames, closures capture frames that are
listed, no two of them have the same identity, and the values that names are bound to hold no
others. Each operation on the store keeps it, and only two of them have to add something to the
inventory: the one that makes a frame and the one that gives out an identity.
-/

namespace SmallLisp

/-! ### The closures of a datum -/

namespace Datum

/-- The closure that a datum is, if it is one. -/
def closure? : Datum → Option Closure
  | .closure id params body frame _ => some ⟨id, params, body, frame⟩
  | _ => none

/-- **The closures of a datum**: itself, those in the elements of a list, and those in the body
of a closure. -/
def closures (d : Datum) : List Closure := d.nodes.filterMap closure?

@[simp]
theorem closures_atom (a : Atom) (s : Span) : (Datum.atom a s).closures = [] := rfl

@[simp]
theorem closures_primitive (p : Primitive) (s : Span) : (Datum.primitive p s).closures = [] := rfl

@[simp]
theorem closures_list (es : List Datum) (s : Span) :
    (Datum.list es s).closures = es.flatMap closures := by
  rw [closures, nodes, nodesOfAll_eq]
  exact List.filterMap_flatMap

@[simp]
theorem closures_closure (id : Nat) (params : List String) (body : List Datum) (frame : FrameId)
    (s : Span) : (Datum.closure id params body frame s).closures =
      ⟨id, params, body, frame⟩ :: body.flatMap closures := by
  rw [closures, nodes, nodesOfAll_eq]
  exact congrArg (_ :: ·) List.filterMap_flatMap

@[simp]
theorem closures_withSpan (d : Datum) (s : Span) : (d.withSpan s).closures = d.closures := by
  cases d with
  | atom | primitive => rfl
  | list es t => rw [withSpan, closures_list, closures_list]
  | closure id params body frame t => rw [withSpan, closures_closure, closures_closure]

theorem mem_closures_of_procedure? {d : Datum} {k : Closure}
    (h : d.procedure? = some (.closure k)) : k ∈ d.closures := by
  cases d with
  | atom | list | primitive => cases h
  | closure id params body frame s =>
    cases h
    rw [closures_closure]
    exact List.mem_cons_self

/-- There is no closure in what holds none. -/
theorem closures_eq_nil {d : Datum} (h : d.holdsClosure = false) : d.closures = [] := by
  induction d using Datum.induction with
  | atom | primitive => rfl
  | list es s ih =>
    rw [holdsClosure_list, List.any_eq_false] at h
    rw [closures_list, List.flatMap_eq_nil_iff]
    exact fun e he => ih e he (Bool.eq_false_iff.mpr (h e he))
  | closure => cases h

end Datum

/-- The datum that an error hands on, as a list. -/
def EvalError.found : EvalError → List Datum
  | .notSymbol d => [d]
  | _ => []

/-! ### Inventories -/

/-- **An inventory** of frames and closures. -/
structure Inventory where
  /-- The frames that are listed. -/
  frames : Set FrameId
  /-- The closures that are listed. -/
  closures : Set Closure

namespace Inventory

variable {w w' : Inventory} {s t : Store} {d : Datum} {f : FrameId} {span : Span}

/-- A larger inventory lists everything that the smaller one does. -/
instance : Preorder Inventory where
  le w w' := w.frames ⊆ w'.frames ∧ w.closures ⊆ w'.closures
  le_refl _ := ⟨subset_rfl, subset_rfl⟩
  le_trans _ _ _ h h' := ⟨h.1.trans h'.1, h.2.trans h'.2⟩

/-- The inventory with one more frame. -/
def addFrame (w : Inventory) (f : FrameId) : Inventory := { w with frames := insert f w.frames }

/-- The inventory with one more closure. -/
def addClosure (w : Inventory) (k : Closure) : Inventory :=
  { w with closures := insert k w.closures }

theorem le_addFrame (w : Inventory) (f : FrameId) : w ≤ w.addFrame f :=
  ⟨Set.subset_insert f w.frames, subset_rfl⟩

theorem le_addClosure (w : Inventory) (k : Closure) : w ≤ w.addClosure k :=
  ⟨subset_rfl, Set.subset_insert k w.closures⟩

/-- **An inventory lists a datum** if it lists all its closures. -/
def Lists (w : Inventory) (d : Datum) : Prop := ∀ k ∈ d.closures, k ∈ w.closures

theorem Lists.mono (h : w.Lists d) (hle : w ≤ w') : w'.Lists d := fun k hk => hle.2 (h k hk)

@[simp]
theorem lists_atom (a : Atom) : w.Lists (.atom a span) := nofun

@[simp]
theorem lists_primitive (p : Primitive) : w.Lists (.primitive p span) := nofun

@[simp]
theorem lists_list {es : List Datum} : w.Lists (.list es span) ↔ ∀ e ∈ es, w.Lists e := by
  rw [Lists, Datum.closures_list, List.forall_mem_flatMap]
  rfl

@[simp]
theorem lists_closure {id : Nat} {params : List String} {body : List Datum} {frame : FrameId} :
    w.Lists (.closure id params body frame span) ↔
      ⟨id, params, body, frame⟩ ∈ w.closures ∧ ∀ e ∈ body, w.Lists e := by
  rw [Lists, Datum.closures_closure, List.forall_mem_cons, List.forall_mem_flatMap]
  rfl

theorem lists_of_not_holdsClosure (h : d.holdsClosure = false) : w.Lists d := by
  rw [Lists, Datum.closures_eq_nil h]
  exact List.forall_mem_nil _

/-- An error is listed if what it hands on is. -/
def ListsError (w : Inventory) (e : EvalError) : Prop := ∀ d ∈ e.found, w.Lists d

/-- No closure is made but by `lambda`: primitives and special forms pass on what is listed. -/
theorem passedOn (w : Inventory) (span : Span) : PassedOn span w.ListsError w.Lists where
  number x := lists_atom (.number x)
  boolean b := lists_atom (.boolean b)
  list _ hes := lists_list.mpr hes
  element _ _ hes := lists_list.mp hes
  call _ := List.forall_mem_nil _
  argument _ _ _ := List.forall_mem_nil _
  form _ := List.forall_mem_nil _
  notSymbol _ hd := List.forall_mem_singleton.mpr hd

/-! ### Inventories of stores -/

/-- **An inventory accounts for a store.** -/
structure Accounts (w : Inventory) (s : Store) : Prop where
  /-- Every link goes to a frame made earlier. -/
  linksBack : s.LinksBack
  /-- The frames listed are those of the store. -/
  mem_frames_iff : ∀ f, f ∈ w.frames ↔ f < s.frames.size
  /-- A closure captures a frame that is listed. -/
  frame_mem : ∀ k ∈ w.closures, k.frame ∈ w.frames
  /-- What stands in the body of a closure is listed as well. -/
  body_listed : ∀ k ∈ w.closures, ∀ e ∈ k.body, w.Lists e
  /-- The identities of the closures have been given out. -/
  id_lt : ∀ k ∈ w.closures, k.id < s.nextClosure
  /-- No two closures have the same identity. -/
  id_injOn : Set.InjOn Closure.id w.closures
  /-- What names are bound to is listed. -/
  holds : s.Holds w.Lists

/-- The store in which nothing has been made yet has an empty inventory. -/
theorem accounts_empty : Accounts ⟨∅, ∅⟩ .empty where
  linksBack f o h := by simp [Store.outer?, Store.empty] at h
  mem_frames_iff f := ⟨nofun, nofun⟩
  frame_mem _ := nofun
  body_listed _ := nofun
  id_lt _ := nofun
  id_injOn := Set.injOn_empty _
  holds := Store.holds_empty

namespace Accounts

/-- It does not matter to an inventory what names are bound to, as long as that is listed. -/
theorem of_bindings (h : w.Accounts s) (hsize : t.frames.size = s.frames.size)
    (hnext : t.nextClosure = s.nextClosure) (houter : ∀ f, t.outer? f = s.outer? f)
    (hholds : t.Holds w.Lists) : w.Accounts t where
  linksBack f o hlink := h.linksBack f o (by rwa [houter] at hlink)
  mem_frames_iff f := by rw [hsize, h.mem_frames_iff]
  frame_mem := h.frame_mem
  body_listed := h.body_listed
  id_lt k hk := by
    rw [hnext]
    exact h.id_lt k hk
  id_injOn := h.id_injOn
  holds := hholds

theorem set (h : w.Accounts s) (x : String) {v : Datum} (hv : w.Lists v) :
    w.Accounts (s.set f x v) :=
  h.of_bindings (s.size_set f x v) rfl (fun g => s.outer?_set f g x v) (h.holds.set x hv)

theorem setAll {entries : List (String × Datum)} (h : w.Accounts s)
    (hentries : ∀ e ∈ entries, w.Lists e.2) : w.Accounts (s.setAll f entries) := by
  induction entries generalizing s with
  | nil => exact h
  | cons e entries ih =>
    obtain ⟨he, hentries⟩ := List.forall_mem_cons.mp hentries
    exact ih (h.set e.1 he) hentries

theorem clear (h : w.Accounts s) (f : FrameId) : w.Accounts (s.clear f) :=
  h.of_bindings (s.size_clear f) rfl (fun g => s.outer?_clear f g) h.holds.clear

theorem finish (h : w.Accounts s) (policy : FramePolicy) (f : FrameId)
    (r : Except EvalError Datum) : w.Accounts (policy.finish f r s) := by
  cases policy with
  | keepAll => exact h
  | clearFinished =>
    rw [FramePolicy.finish]
    split
    · exact h
    · exact h.clear f

/-- **A new frame is made inside one that is listed**, so its link goes back. -/
theorem addFrame (h : w.Accounts s) {outer : Option FrameId}
    (houter : ∀ o, outer = some o → o ∈ w.frames) :
    (w.addFrame s.frames.size).Accounts (s.addFrame outer .empty).2 where
  linksBack f o hlink := by
    rw [Store.outer?_addFrame] at hlink
    split at hlink
    · next hf =>
      rw [hf]
      exact (h.mem_frames_iff o).mp (houter o hlink)
    · exact h.linksBack f o hlink
  mem_frames_iff f := by
    rw [Store.size_addFrame, Nat.lt_succ_iff_lt_or_eq, or_comm, ← h.mem_frames_iff]
    rfl
  frame_mem k hk := Set.mem_insert_of_mem _ (h.frame_mem k hk)
  body_listed k hk e he := (h.body_listed k hk e he).mono (w.le_addFrame _)
  id_lt := h.id_lt
  id_injOn := h.id_injOn
  holds := by
    intro g x v hv
    exact (h.holds.addFrame outer g x v hv).mono (w.le_addFrame _)

theorem addRoot (h : w.Accounts s) : (w.addFrame s.frames.size).Accounts s.addRoot.2 := by
  rw [Store.snd_addRoot]
  have hnew : (w.addFrame s.frames.size).Accounts (s.addFrame none .empty).2 := h.addFrame nofun
  refine hnew.setAll fun e he => ?_
  obtain ⟨p, -, rfl⟩ := List.mem_map.mp he
  exact lists_primitive p.2

/-- **A new closure has an identity that no other has**, for the others have been given theirs
before. -/
theorem addClosure (h : w.Accounts s) {k : Closure} (hid : k.id = s.nextClosure)
    (hframe : k.frame ∈ w.frames) (hbody : ∀ e ∈ k.body, w.Lists e) :
    (w.addClosure k).Accounts s.addClosure.2 where
  linksBack := h.linksBack
  mem_frames_iff := h.mem_frames_iff
  frame_mem := Set.forall_mem_insert.mpr ⟨hframe, h.frame_mem⟩
  body_listed := by
    have hbodies : ∀ k' ∈ insert k w.closures, ∀ e ∈ k'.body, w.Lists e :=
      Set.forall_mem_insert.mpr ⟨hbody, h.body_listed⟩
    exact fun k' hk' e he => (hbodies k' hk' e he).mono (w.le_addClosure k)
  id_lt := by
    refine Set.forall_mem_insert.mpr ⟨?_, fun k' hk' => ?_⟩
    · rw [hid]
      exact Nat.lt_succ_self _
    · exact Nat.lt_succ_of_lt (h.id_lt k' hk')
  id_injOn := by
    have hnew : ∀ k' ∈ w.closures, k'.id ≠ k.id := fun k' hk' =>
      hid ▸ (h.id_lt k' hk').ne
    rintro a (rfl | ha) b (rfl | hb) hab
    · rfl
    · exact absurd hab.symm (hnew b hb)
    · exact absurd hab (hnew a ha)
    · exact h.id_injOn ha hb hab
  holds f x v hv := (h.holds f x v hv).mono (w.le_addClosure k)

end Accounts

end Inventory

end SmallLisp
