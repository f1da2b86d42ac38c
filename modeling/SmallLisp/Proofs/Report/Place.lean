import SmallLisp.Report.Basic

/-!
# The line and the column of a position

A report gives a position as a line and a column, both counted from one. It finds the line as the
last one that starts at the position or in front of it, by the starts that the lines were given
when the text was cut. This file says what comes of it without the cutting: a line ends behind
each of the characters that end one, with a carriage return and a line feed in one
(`SmallLisp.LineEndsBetween`), and the column counts characters from the start of the line.

* `SmallLisp.isLines_linesOf` – **the text is cut where its lines end**, and nowhere else;
* `SmallLisp.SourceLine.getLast?_filter_locate` – the last line that starts early enough;
* `SmallLisp.exists_isPlace` – **the line and the column that are given** are those of the
  position.
-/

namespace SmallLisp

/-! ### Where lines end -/

/-- **A line ends between two parts of a text**: the character in front ends a line, and is not
a carriage return whose line feed is still to come. -/
def LineEndsBetween (a b : List Char) : Prop :=
  ∃ front c, a = front ++ [c] ∧ isLineEnd c = true ∧ ¬(c = '\r' ∧ ∃ rest, b = '\n' :: rest)

/-- What stands further in front does not matter. -/
theorem lineEndsBetween_cons {c : Char} {a b : List Char} (ha : a ≠ []) :
    LineEndsBetween (c :: a) b ↔ LineEndsBetween a b := by
  constructor
  · rintro ⟨front, d, h, hd⟩
    rcases List.cons_eq_append_iff.mp h with ⟨-, h⟩ | ⟨front, rfl, rfl⟩
    · exact absurd (List.cons.inj h).2.symm ha
    · exact ⟨front, d, rfl, hd⟩
  · rintro ⟨front, d, rfl, hd⟩
    exact ⟨c :: front, d, rfl, hd⟩

theorem lineEndsBetween_singleton {c : Char} {b : List Char} :
    LineEndsBetween [c] b ↔ isLineEnd c = true ∧ ¬(c = '\r' ∧ ∃ rest, b = '\n' :: rest) := by
  constructor
  · rintro ⟨front, d, h, hd⟩
    rcases List.cons_eq_append_iff.mp h with ⟨-, h⟩ | ⟨front, rfl, h⟩
    · obtain ⟨rfl, -⟩ := List.cons.inj h
      exact hd
    · simp at h
  · exact fun h => ⟨[], c, rfl, h⟩

/-- One of the lines starts behind a part of the text. -/
def StartsBehind (lines : List (List Char)) (a : List Char) : Prop :=
  ∃ above below, lines = above ++ below ∧ above.flatten = a

theorem startsBehind_nil (lines : List (List Char)) : StartsBehind lines [] :=
  ⟨[], lines, rfl, rfl⟩

theorem startsBehind_cons {l a : List Char} {ls : List (List Char)} (ha : a ≠ []) :
    StartsBehind (l :: ls) a ↔ ∃ rest, a = l ++ rest ∧ StartsBehind ls rest := by
  constructor
  · rintro ⟨above, below, h, rfl⟩
    rcases List.cons_eq_append_iff.mp h with ⟨rfl, -⟩ | ⟨above, rfl, rfl⟩
    · exact absurd rfl ha
    · exact ⟨above.flatten, rfl, above, below, rfl, rfl⟩
  · rintro ⟨rest, rfl, above, below, rfl, rfl⟩
    exact ⟨l :: above, below, rfl, rfl⟩

/-- The same, where a part of the first line is known. -/
theorem startsBehind_append_cons {line w a : List Char} {ls : List (List Char)} (ha : a ≠ []) :
    StartsBehind ((line ++ w) :: ls) (line ++ a) ↔
      ∃ rest, a = w ++ rest ∧ StartsBehind ls rest := by
  rw [startsBehind_cons (List.append_ne_nil_of_right_ne_nil line ha)]
  simp only [List.append_assoc, List.append_cancel_left_eq]

/-- **The lines of a text**: they make up the text, and one starts where another ends. Only an
empty text has an empty line. -/
structure IsLines (cs : List Char) (lines : List (List Char)) : Prop where
  flatten : lines.flatten = cs
  ne_nil : [] ∈ lines → lines = [[]]
  startsBehind_iff : ∀ a b, a ≠ [] → b ≠ [] → cs = a ++ b →
    (StartsBehind lines a ↔ LineEndsBetween a b)

/-! ### Cutting -/

/-- The characters of the lines of a text; an empty text is one empty line. -/
def linesOf (cs : List Char) : List (List Char) :=
  match cutLines [] cs with
  | [] => [[]]
  | lines => lines

theorem nil_notMem_cutLines (line cs : List Char) : [] ∉ cutLines line cs := by
  fun_induction cutLines line cs <;> simp_all

/-- The first line goes on from what there is of it. -/
theorem exists_cutLines_eq_cons {line cs : List Char} (h : cs ≠ []) :
    ∃ l ls, cutLines line cs = l :: ls ∧ line.length < l.length := by
  fun_induction cutLines line cs with
  | case1 | case2 => exact absurd rfl h
  | case3 line cs => exact ⟨_, _, rfl, by simp⟩
  | case4 line c cs => exact ⟨_, _, rfl, by simp⟩
  | case5 line c cs hcrlf hc ih =>
    by_cases hcs : cs = []
    · subst hcs
      exact ⟨(c :: line).reverse, [], by simp [cutLines], by simp⟩
    · obtain ⟨l, ls, heq, hlt⟩ := ih hcs
      exact ⟨l, ls, heq, Nat.lt_trans (Nat.lt_succ_self _) hlt⟩

/-- What is cut off the front of a text is its first character, or goes on behind it. -/
theorem eq_or_exists_cons {c : Char} {cs a b : List Char} (ha : a ≠ []) (h : c :: cs = a ++ b) :
    (a = [c] ∧ b = cs) ∨ ∃ a', a' ≠ [] ∧ a = c :: a' ∧ cs = a' ++ b := by
  cases a with
  | nil => exact absurd rfl ha
  | cons d a =>
    obtain ⟨rfl, rfl⟩ := List.cons.inj h
    by_cases hnil : a = []
    · subst hnil
      exact .inl ⟨rfl, rfl⟩
    · exact .inr ⟨a, hnil, rfl, rfl⟩

/-- **Lines start where others end**, if `line` is what there is of the first one. -/
theorem startsBehind_cutLines_iff {line cs a b : List Char} (ha : a ≠ []) (hb : b ≠ [])
    (hcs : cs = a ++ b) :
    StartsBehind (cutLines line cs) (line.reverse ++ a) ↔ LineEndsBetween a b := by
  fun_induction cutLines line cs generalizing a with
  | case1 | case2 => exact absurd (List.append_eq_nil_iff.mp hcs.symm).1 ha
  -- a carriage return and a line feed end a line together
  | case3 line cs ih =>
    rw [List.reverse_cons, List.reverse_cons, List.append_assoc, startsBehind_append_cons ha]
    rcases eq_or_exists_cons ha hcs with ⟨rfl, rfl⟩ | ⟨a', ha', rfl, h⟩
    · simp [lineEndsBetween_singleton]
    rw [lineEndsBetween_cons ha']
    rcases eq_or_exists_cons ha' h with ⟨rfl, rfl⟩ | ⟨a'', ha'', rfl, h'⟩
    · refine iff_of_true ⟨[], rfl, startsBehind_nil _⟩ (lineEndsBetween_singleton.mpr ?_)
      exact ⟨by decide, fun hcr => absurd hcr.1 (by decide)⟩
    · rw [lineEndsBetween_cons ha'', ← ih ha'' h']
      simp
  | case4 line c cs hcrlf hc ih =>
    rw [List.reverse_cons, startsBehind_append_cons ha]
    rcases eq_or_exists_cons ha hcs with ⟨rfl, rfl⟩ | ⟨a', ha', rfl, h⟩
    · refine iff_of_true ⟨[], rfl, startsBehind_nil _⟩ (lineEndsBetween_singleton.mpr ⟨hc, ?_⟩)
      rintro ⟨rfl, rest, rfl⟩
      exact hcrlf rest rfl rfl
    · rw [lineEndsBetween_cons ha', ← ih ha' h]
      simp
  -- the line goes on, so nothing starts here
  | case5 line c cs hcrlf hc ih =>
    rcases eq_or_exists_cons ha hcs with ⟨rfl, rfl⟩ | ⟨a', ha', rfl, h⟩
    · obtain ⟨l, ls, heq, hlt⟩ := @exists_cutLines_eq_cons (c :: line) b hb
      refine iff_of_false ?_ fun h => hc (lineEndsBetween_singleton.mp h).1
      rw [heq, startsBehind_cons (by simp)]
      rintro ⟨rest, h, -⟩
      have hlength := congrArg List.length h
      simp only [List.length_append, List.length_reverse, List.length_cons, List.length_nil]
        at hlength hlt
      omega
    · rw [lineEndsBetween_cons ha', ← ih ha' h, List.reverse_cons, List.append_assoc]
      rfl

/-- **A text is cut into its lines.** -/
theorem isLines_linesOf (cs : List Char) : IsLines cs (linesOf cs) := by
  have hflatten := flatten_cutLines [] cs
  have hne := nil_notMem_cutLines [] cs
  have hstarts := @startsBehind_cutLines_iff [] cs
  rw [linesOf]
  generalize cutLines [] cs = lines at *
  cases lines with
  | nil =>
    obtain rfl : cs = [] := hflatten.symm
    refine ⟨rfl, fun _ => rfl, fun a b ha _ h => ?_⟩
    exact absurd (List.append_eq_nil_iff.mp h.symm).1 ha
  | cons l ls =>
    exact ⟨hflatten, fun h => absurd h hne, fun a b ha hb h => hstarts ha hb h⟩

/-! ### Places -/

/-- **The line and the column of a position**, both counted from one. The end of the text is in the
last line, behind the last character, also if that character ends the line. -/
def IsPlace (cs : List Char) (position line column : Nat) : Prop :=
  ∃ above l below, IsLines cs (above ++ l :: below) ∧ line = above.length + 1 ∧ 0 < column ∧
    position + 1 = above.flatten.length + column ∧
    (column ≤ l.length ∨ below = [] ∧ column = l.length + 1)

namespace SourceLine

theorem ofChars_eq (cs : List Char) : ofChars cs = locate 1 0 (linesOf cs) := by
  rw [ofChars, linesOf]
  cases cutLines [] cs <;> rfl

theorem le_start_of_mem_locate {number start : Nat} {lines : List (List Char)} {l : SourceLine}
    (h : l ∈ locate number start lines) : start ≤ l.start := by
  induction lines generalizing number start with
  | nil => cases h
  | cons cs lines ih =>
    rcases List.mem_cons.mp h with rfl | h
    · exact Nat.le_refl _
    · exact Nat.le_trans (Nat.le_add_right _ _) (ih h)

/-- **The last line that starts at a position or in front of it** is the one that the position is
in; the position behind the last character is in the last line. -/
theorem getLast?_filter_locate {number start position : Nat} {lines : List (List Char)}
    (hne : lines ≠ []) (hstart : start ≤ position)
    (hstop : position ≤ start + lines.flatten.length) :
    ∃ above l below, lines = above ++ l :: below ∧
      ((locate number start lines).filter fun l => l.start ≤ position).getLast? =
        some ⟨number + above.length, start + above.flatten.length, l⟩ ∧
      start + above.flatten.length ≤ position ∧
      (position < start + above.flatten.length + l.length ∨
        below = [] ∧ position = start + above.flatten.length + l.length) := by
  induction lines generalizing number start with
  | nil => exact absurd rfl hne
  | cons l lines ih =>
    rw [List.flatten_cons, List.length_append] at hstop
    rw [locate, List.filter_cons_of_pos (by simpa using hstart)]
    by_cases hlt : position < start + l.length
    · -- the other lines start behind the position
      have hnone : ((locate (number + 1) (start + l.length) lines).filter
          fun l => l.start ≤ position) = [] := by
        refine List.filter_eq_nil_iff.mpr fun m hm => ?_
        have := le_start_of_mem_locate hm
        simp only [decide_eq_true_eq]
        omega
      rw [hnone]
      exact ⟨[], l, lines, rfl, rfl, hstart, .inl hlt⟩
    · by_cases hlines : lines = []
      · subst hlines
        refine ⟨[], l, [], rfl, rfl, hstart, .inr ⟨rfl, ?_⟩⟩
        simp at hstop ⊢
        omega
      · obtain ⟨above, m, below, rfl, hlast, hle, hend⟩ :=
          @ih (number + 1) (start + l.length) hlines (by omega) (by omega)
        have hfront : start + (l :: above).flatten.length =
            start + l.length + above.flatten.length := by
          rw [List.flatten_cons, List.length_append, Nat.add_assoc]
        refine ⟨l :: above, m, below, rfl, ?_, ?_, ?_⟩
        · rw [List.getLast?_cons, hlast, hfront]
          simp [Nat.add_assoc, Nat.add_comm 1]
        · rwa [hfront]
        · rwa [hfront]

end SourceLine

/-- **A position in a text is given as its line and its column.** -/
theorem exists_isPlace {cs : List Char} {position : Nat} (h : position ≤ cs.length) :
    ∃ line column, IsPlace cs position line column ∧
      Report.place (SourceLine.ofChars cs) cs.length position =
        toString line ++ ":" ++ toString column := by
  have hlines := isLines_linesOf cs
  have hne : linesOf cs ≠ [] := by
    rw [linesOf]
    split <;> simp_all
  obtain ⟨above, l, below, heq, hlast, hle, hend⟩ :=
    @SourceLine.getLast?_filter_locate 1 0 position (linesOf cs) hne (Nat.zero_le _)
      (by rw [hlines.flatten, Nat.zero_add]; exact h)
  rw [Nat.zero_add] at hle hend hlast
  rw [heq] at hlines
  refine ⟨above.length + 1, position - above.flatten.length + 1,
    ⟨above, l, below, hlines, rfl, Nat.succ_pos _, by omega, ?_⟩, ?_⟩
  · rcases hend with hlt | ⟨hbelow, heq⟩
    · exact .inl (by omega)
    · exact .inr ⟨hbelow, by omega⟩
  rw [Report.place, if_pos h, SourceLine.containing, SourceLine.ofChars_eq, hlast]
  simp [Nat.add_comm]

end SmallLisp
