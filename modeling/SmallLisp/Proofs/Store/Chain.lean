import SmallLisp.Proofs.Store.Growth

/-!
# The chain of a frame

A lookup walks from a frame outward until a frame binds the name. The frames that it may come
through are the *chain* of the frame it starts from (`SmallLisp.Store.chain`), a list that
depends on the links of the store and on no binding.

Everything that walks outward is a question about this list. The frame that binds a name is
the first of the chain that does (`SmallLisp.Store.find?_eq_chain`), and the names that can be
seen are those of all its frames together (`SmallLisp.Store.namesFrom_eq_chain`). So the two
walks, made apart, see the same names (`SmallLisp.Store.mem_namesFrom_iff`), however the names
shadow one another.
-/

namespace SmallLisp

namespace Store

variable {s : Store} {f g : FrameId} {name : String}

/-- **The chain of a frame**: the frame itself and the frames around it, in the order in which a
lookup comes to them. -/
def chain (s : Store) (f : FrameId) : List FrameId :=
  match s.outer? f with
  | some o => if o < f then f :: s.chain o else [f]
  | none => [f]
termination_by f

theorem mem_chain_self (s : Store) (f : FrameId) : f ∈ s.chain f := by
  fun_cases chain s f <;> exact List.mem_cons_self

/-- The frame around a frame of a chain is in the chain as well. -/
theorem mem_chain_of_outer? {o : FrameId} (hg : g ∈ s.chain f) (hlink : s.outer? g = some o)
    (ho : o < g) : o ∈ s.chain f := by
  fun_induction chain s f with
  | case1 f o' hlink' ho' ih =>
    rcases List.mem_cons.mp hg with rfl | hg
    · obtain rfl : o' = o := Option.some.inj (hlink'.symm.trans hlink)
      exact List.mem_cons_of_mem _ (mem_chain_self s o')
    · exact List.mem_cons_of_mem _ (ih hg)
  | case2 f o' hlink' ho' =>
    obtain rfl := List.mem_singleton.mp hg
    obtain rfl : o' = o := Option.some.inj (hlink'.symm.trans hlink)
    exact absurd ho ho'
  | case3 f hlink' =>
    obtain rfl := List.mem_singleton.mp hg
    rw [hlink'] at hlink
    cases hlink

/-! ### Walks along the chain -/

/-- **The frame that a lookup finds is the first of the chain that binds the name.** -/
theorem find?_eq_chain (s : Store) (name : String) (f : FrameId) :
    s.find? name f = (s.chain f).find? fun g => (s.bindings g).binds name := by
  fun_induction chain s f with
  | case1 f o hlink ho ih =>
    rw [find?, List.find?_cons, hlink]
    cases (s.bindings f).binds name with
    | true => rfl
    | false => simpa [ho] using ih
  | case2 f o hlink ho =>
    rw [find?, List.find?_singleton, hlink]
    simp [ho]
  | case3 f hlink =>
    rw [find?, List.find?_singleton, hlink]

/-- **The names that can be seen are those of the frames of the chain.** -/
theorem namesFrom_eq_chain (s : Store) (f : FrameId) :
    s.namesFrom f = (s.chain f).flatMap fun g => (s.bindings g).names := by
  fun_induction chain s f with
  | case1 f o hlink ho ih =>
    rw [namesFrom, hlink, List.flatMap_cons, ← ih]
    exact if_pos ho
  | case2 f o hlink ho =>
    rw [namesFrom, hlink, List.flatMap_singleton]
    exact if_neg ho
  | case3 f hlink => rw [namesFrom, hlink, List.flatMap_singleton]

/-- A value that is looked up is bound in a frame of the chain. -/
theorem exists_of_lookup?_eq_some {v : Datum} (h : s.lookup? name f = some v) :
    ∃ g ∈ s.chain f, (s.bindings g).get? name = some v := by
  obtain ⟨g, hfind, hg⟩ := Option.bind_eq_some_iff.mp h
  rw [find?_eq_chain] at hfind
  exact ⟨g, List.mem_of_find?_eq_some hfind, hg⟩

/-- A lookup succeeds exactly if some frame of the chain binds the name. -/
theorem isSome_lookup?_iff :
    (s.lookup? name f).isSome = true ↔ ∃ g ∈ s.chain f, (s.bindings g).binds name = true := by
  constructor
  · intro h
    obtain ⟨v, hv⟩ := Option.isSome_iff_exists.mp h
    obtain ⟨g, hg, hbound⟩ := exists_of_lookup?_eq_some hv
    exact ⟨g, hg, by rw [Bindings.binds, hbound]; rfl⟩
  · rintro ⟨g, hg, hbinds⟩
    -- the walk stops at some frame, at `g` at the latest, and that frame has a value
    have hstops : ((s.chain f).find? fun h => (s.bindings h).binds name).isSome = true :=
      List.find?_isSome.mpr ⟨g, hg, hbinds⟩
    obtain ⟨h, hfind⟩ := Option.isSome_iff_exists.mp hstops
    have hbound := List.find?_some hfind
    rw [lookup?, find?_eq_chain, hfind]
    exact hbound

/-- **The two walks outward agree**: the names that can be seen are those that a lookup finds. -/
theorem mem_namesFrom_iff : name ∈ s.namesFrom f ↔ (s.lookup? name f).isSome = true := by
  simp only [namesFrom_eq_chain, isSome_lookup?_iff, List.mem_flatMap, Bindings.binds_iff]

end Store

end SmallLisp
