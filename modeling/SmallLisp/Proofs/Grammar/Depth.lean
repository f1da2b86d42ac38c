import Mathlib.Data.List.Infix
import SmallLisp.Token

/-!
# Which parentheses are matched

Whether a list is ever closed is a matter of the parentheses alone: an opening one adds
one to the depth, a closing one takes one away, and an opening parenthesis is matched by
the first closing one that brings the depth back to what it was. So the parenthesis in
front of some tokens is never matched by them if nowhere among them there have been more
closing parentheses than opening ones (`SmallLisp.Token.Kind.NeverMatched`), and
`SmallLisp.Token.Kind.unmatched` counts the opening parentheses of which this is true.

The closing parentheses that match nothing are counted by
`SmallLisp.Token.Kind.deficit`. The two numbers are all that the surroundings can see of
the tokens, which act like `deficit` closing parentheses followed by `unmatched` opening
ones:

* `SmallLisp.Token.Kind.forall_prefix_iff` – the depth stays at zero or above exactly if
  it starts at `deficit` or above;
* `SmallLisp.Token.Kind.deficit_append` and `SmallLisp.Token.Kind.unmatched_append` –
  what is left over when tokens follow one another.
-/

namespace SmallLisp

namespace Token.Kind

/-- What a token adds to the number of open lists. -/
def step : Kind → Int
  | .opening => 1
  | .closing => -1
  | .atom _ => 0

/-- The number of lists that the tokens open and do not close, less the number of those
that they close and have not opened. -/
def depth : List Kind → Int
  | [] => 0
  | k :: ks => k.step + depth ks

/-- **An opening parenthesis in front of the tokens is never matched by them**: among the
first of them, however many, there are no more closing parentheses than opening ones. -/
def NeverMatched (ks : List Kind) : Prop := ∀ p, p <+: ks → 0 ≤ depth p

instance (ks : List Kind) : Decidable (NeverMatched ks) :=
  decidable_of_iff (∀ p ∈ ks.inits, 0 ≤ depth p) (by simp only [List.mem_inits, NeverMatched])

/-- **The number of opening parentheses that are never matched** by what follows them. -/
def unmatched : List Kind → Nat
  | [] => 0
  | k :: ks => unmatched ks + if k = .opening ∧ NeverMatched ks then 1 else 0

/-- The number of closing parentheses that match nothing. -/
def deficit : List Kind → Nat
  | [] => 0
  | .opening :: ks => deficit ks - 1
  | .closing :: ks => deficit ks + 1
  | .atom _ :: ks => deficit ks

@[simp]
theorem depth_nil : depth [] = 0 := rfl

@[simp]
theorem depth_cons (k : Kind) (ks : List Kind) : depth (k :: ks) = k.step + depth ks := rfl

/-! ### The depth along the tokens -/

/-- **The depth stays at zero or above exactly if it starts at the deficit or above.** -/
theorem forall_prefix_iff {ks : List Kind} {d : Int} :
    (∀ p, p <+: ks → 0 ≤ d + depth p) ↔ (deficit ks : Int) ≤ d := by
  induction ks generalizing d with
  | nil => simp [deficit]
  | cons k ks ih =>
    -- a part of `k :: ks` is empty, or `k` and a part of `ks`
    have hcons : (∀ p, p <+: k :: ks → 0 ≤ d + depth p) ↔
        0 ≤ d ∧ ∀ p, p <+: ks → 0 ≤ d + k.step + depth p := by
      constructor
      · intro h
        refine ⟨by simpa using h [] List.nil_prefix, fun p hp => ?_⟩
        have := h (k :: p) ((List.prefix_cons_inj k).mpr hp)
        rw [depth_cons] at this
        omega
      · rintro ⟨hd, h⟩ p hp
        rcases List.prefix_cons_iff.mp hp with rfl | ⟨t, rfl, ht⟩
        · simpa using hd
        · have := h t ht
          rw [depth_cons]
          omega
    rw [hcons, ih]
    cases k <;> simp only [step, deficit] <;> omega

theorem neverMatched_iff {ks : List Kind} : NeverMatched ks ↔ deficit ks = 0 := by
  have h := @forall_prefix_iff ks 0
  simp only [Int.zero_add] at h
  rw [NeverMatched, h]
  omega

/-! ### The two numbers, token by token -/

@[simp]
theorem unmatched_nil : unmatched [] = 0 := rfl

theorem unmatched_opening (ks : List Kind) :
    unmatched (.opening :: ks) = if deficit ks = 0 then unmatched ks + 1 else unmatched ks := by
  rw [unmatched]
  split <;> simp_all [neverMatched_iff]

@[simp]
theorem unmatched_closing (ks : List Kind) : unmatched (.closing :: ks) = unmatched ks := by
  simp [unmatched]

@[simp]
theorem unmatched_atom (text : String) (ks : List Kind) :
    unmatched (.atom text :: ks) = unmatched ks := by
  simp [unmatched]

@[simp]
theorem deficit_nil : deficit [] = 0 := rfl

@[simp]
theorem deficit_opening (ks : List Kind) : deficit (.opening :: ks) = deficit ks - 1 := rfl

@[simp]
theorem deficit_closing (ks : List Kind) : deficit (.closing :: ks) = deficit ks + 1 := rfl

@[simp]
theorem deficit_atom (text : String) (ks : List Kind) :
    deficit (.atom text :: ks) = deficit ks := rfl

/-! ### Tokens after one another -/

/-- The opening parentheses that the first tokens leave unmatched are there for the
closing parentheses of the others. -/
theorem deficit_append (ks ls : List Kind) :
    deficit (ks ++ ls) = deficit ks + (deficit ls - unmatched ks) := by
  induction ks with
  | nil => simp
  | cons k ks ih =>
    cases k with
    | opening =>
      rw [List.cons_append, deficit_opening, deficit_opening, unmatched_opening, ih]
      split <;> omega
    | closing =>
      rw [List.cons_append, deficit_closing, deficit_closing, unmatched_closing, ih]
      omega
    | atom text => rw [List.cons_append, deficit_atom, deficit_atom, unmatched_atom, ih]

theorem unmatched_append (ks ls : List Kind) :
    unmatched (ks ++ ls) = unmatched ls + (unmatched ks - deficit ls) := by
  induction ks with
  | nil => simp
  | cons k ks ih =>
    cases k with
    | opening =>
      rw [List.cons_append, unmatched_opening, unmatched_opening, deficit_append, ih]
      -- one more is matched unless those behind it use up all closing parentheses
      split <;> split <;> omega
    | closing => rw [List.cons_append, unmatched_closing, unmatched_closing, ih]
    | atom text => rw [List.cons_append, unmatched_atom, unmatched_atom, ih]

/-- Parentheses that all match one another are not seen from in front of them. -/
theorem deficit_append_of_balanced {ks : List Kind} (hd : deficit ks = 0) (hu : unmatched ks = 0)
    (ls : List Kind) : deficit (ks ++ ls) = deficit ls := by
  rw [deficit_append, hd, hu]
  omega

theorem unmatched_append_of_balanced {ks : List Kind} (hu : unmatched ks = 0) (ls : List Kind) :
    unmatched (ks ++ ls) = unmatched ls := by
  rw [unmatched_append, hu]
  omega

end Token.Kind

end SmallLisp
