import SmallLisp.Store.Basic

/-!
# Actions on the store

An action reads and changes a store and ends with a value or with an error. Changes
made before an error stay. An action may also come to no end within the depth it was
allowed; then there is neither a result nor a store, which is kept apart from every
error.

`SmallLisp.Action` is a monad: one action after another, up to the first error.
-/

namespace SmallLisp

/-- **An action** that ends with a value of `α` or an error of `ε`, and the store it
leaves; `none` if the depth allowed does not suffice. -/
def Action (ε α : Type) : Type := Store → Option (Except ε α × Store)

namespace Action

variable {ε δ α β : Type}

/-- The value, with the store as it is. -/
def pure (a : α) : Action ε α := fun s => some (.ok a, s)

/-- One action, and if it gives a value, the action that depends on it. -/
def bind (x : Action ε α) (f : α → Action ε β) : Action ε β := fun s =>
  match x s with
  | none => none
  | some (.error e, s) => some (.error e, s)
  | some (.ok a, s) => f a s

instance : Monad (Action ε) where
  pure := pure
  bind := bind

/-- The error, with the store as it is. -/
def fail (e : ε) : Action ε α := fun s => some (.error e, s)

/-- A result that does not depend on the store. -/
def ofExcept (r : Except ε α) : Action ε α := fun s => some (r, s)

/-- A change of the store. -/
def change (f : Store → Store) : Action ε Unit := fun s => some (.ok (), f s)

/-- A step of the store that gives a value. -/
def step (f : Store → α × Store) : Action ε α := fun s => some (.ok (f s).1, (f s).2)

/-- A value read off the store, or an error. -/
def inspect (f : Store → Except ε α) : Action ε α := fun s => some (f s, s)

/-- No end within the depth allowed. -/
def outOfDepth : Action ε α := fun _ => none

/-- The same action with its errors seen as errors of another kind. -/
def mapError (f : ε → δ) (x : Action ε α) : Action δ α := fun s =>
  match x s with
  | none => none
  | some (.error e, s) => some (.error (f e), s)
  | some (.ok a, s) => some (.ok a, s)

/-! ### How actions run -/

@[simp]
theorem pure_apply (a : α) (s : Store) : (Pure.pure a : Action ε α) s = some (.ok a, s) := rfl

theorem bind_apply (x : Action ε α) (f : α → Action ε β) (s : Store) :
    (x >>= f) s =
      match x s with
      | none => none
      | some (.error e, s) => some (.error e, s)
      | some (.ok a, s) => f a s := rfl

/-- A sequence of two actions ends in an error of the first, or as the second
does. -/
theorem bind_eq_some_iff {x : Action ε α} {f : α → Action ε β} {s t : Store} {r : Except ε β} :
    (x >>= f) s = some (r, t) ↔
      (∃ e, x s = some (.error e, t) ∧ r = .error e) ∨
      (∃ a u, x s = some (.ok a, u) ∧ f a u = some (r, t)) := by
  rw [bind_apply]
  rcases x s with _ | ⟨_ | a, u⟩
  · simp
  · simp only [Option.some.injEq, Prod.mk.injEq, Except.error.injEq, reduceCtorEq, false_and,
      exists_false, or_false]
    constructor
    · rintro ⟨rfl, rfl⟩
      exact ⟨_, ⟨rfl, rfl⟩, rfl⟩
    · rintro ⟨e, ⟨rfl, rfl⟩, rfl⟩
      exact ⟨rfl, rfl⟩
  · simp only [Option.some.injEq, Prod.mk.injEq, Except.ok.injEq, reduceCtorEq, false_and,
      exists_false, false_or]
    constructor
    · exact fun h => ⟨a, u, ⟨rfl, rfl⟩, h⟩
    · rintro ⟨_, _, ⟨rfl, rfl⟩, h⟩
      exact h

instance : LawfulMonad (Action ε) := LawfulMonad.mk' (Action ε)
  (fun x => by
    funext s
    show bind x pure s = x s
    rw [bind]
    rcases x s with _ | ⟨_ | a, u⟩ <;> rfl)
  (fun _ _ => rfl)
  (fun x f g => by
    funext s
    show bind (bind x f) g s = bind x (fun a => bind (f a) g) s
    simp only [bind]
    rcases x s with _ | ⟨_ | a, u⟩ <;> rfl)

end Action

end SmallLisp
