/-!
# Classes of characters given by tables

A class of characters that a standard lists is kept as a table: ranges of code
points, ends included, in ascending order. Because of the order a search may stop at
the first range that does not end below the character, and most characters of most
texts are found, or known to be missing, within the first few ranges.

* `SmallLisp.inRanges` – the search;
* `SmallLisp.inRanges_eq_true_iff` – **in a table in order the search finds exactly the
  characters of its ranges**.
-/

namespace SmallLisp

/-- Whether a character is in a table: the first range that does not end below its
code point decides. -/
def inRanges : List (Nat × Nat) → Char → Bool
  | [], _ => false
  | (low, high) :: ranges, c => if c.toNat ≤ high then low ≤ c.toNat else inRanges ranges c

/-- Whether the ranges of a table are in ascending order, apart from one another, and
start at `least` or above. -/
def ascendingFrom (least : Nat) : List (Nat × Nat) → Bool
  | [] => true
  | (low, high) :: ranges => least ≤ low && low ≤ high && ascendingFrom (high + 1) ranges

/-- In a table in order no range begins below the bound. -/
theorem le_of_ascendingFrom {least : Nat} {ranges : List (Nat × Nat)}
    (h : ascendingFrom least ranges = true) {r : Nat × Nat} (hr : r ∈ ranges) : least ≤ r.1 := by
  induction ranges generalizing least with
  | nil => simp at hr
  | cons s ranges ih =>
    obtain ⟨low, high⟩ := s
    simp only [ascendingFrom, Bool.and_eq_true, decide_eq_true_eq] at h
    rcases List.mem_cons.1 hr with rfl | hr
    · exact h.1.1
    · have := ih h.2 hr
      omega

/-- **In a table in order the search finds exactly the characters of its ranges.** -/
theorem inRanges_eq_true_iff {least : Nat} {ranges : List (Nat × Nat)}
    (h : ascendingFrom least ranges = true) (c : Char) :
    inRanges ranges c = true ↔ ∃ r ∈ ranges, r.1 ≤ c.toNat ∧ c.toNat ≤ r.2 := by
  induction ranges generalizing least with
  | nil => simp [inRanges]
  | cons s ranges ih =>
    obtain ⟨low, high⟩ := s
    simp only [ascendingFrom, Bool.and_eq_true, decide_eq_true_eq] at h
    simp only [inRanges, List.mem_cons, exists_eq_or_imp]
    split
    · simp only [decide_eq_true_eq]
      refine ⟨fun hl => .inl ⟨hl, by assumption⟩, ?_⟩
      rintro (hl | ⟨r, hr, hl, -⟩)
      · exact hl.1
      · have := le_of_ascendingFrom h.2 hr
        omega
    · rw [ih h.2]
      refine ⟨.inr, ?_⟩
      rintro (hl | hl)
      · omega
      · exact hl

end SmallLisp
