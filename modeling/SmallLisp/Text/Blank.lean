import SmallLisp.Text.Ranges

/-!
# Blank characters

What separates tokens, what is trimmed from a line and what a diagnostic shows as a
space is one and the same class: the characters with the Unicode property
`White_Space`. The class is a table of code points, wider than the ASCII class of
`Char.isWhitespace`.
-/

namespace SmallLisp

/-- The ranges of code points, ends included, that have the property
`White_Space`. -/
def blankRanges : List (Nat × Nat) :=
  [(0x0009, 0x000D), (0x0020, 0x0020), (0x0085, 0x0085), (0x00A0, 0x00A0), (0x1680, 0x1680),
    (0x2000, 0x200A), (0x2028, 0x2029), (0x202F, 0x202F), (0x205F, 0x205F), (0x3000, 0x3000)]

theorem ascendingFrom_blankRanges : ascendingFrom 0 blankRanges = true := by decide

/-- A character is blank when its code point lies in one of the ranges of
`blankRanges`. -/
def isBlank (c : Char) : Bool := inRanges blankRanges c

/-- The characters without the blank ones at either end. -/
def trimBlanks (cs : List Char) : List Char :=
  ((cs.dropWhile isBlank).reverse.dropWhile isBlank).reverse

/-- The characters without the blank ones at the right end. -/
def trimBlanksRight (cs : List Char) : List Char :=
  (cs.reverse.dropWhile isBlank).reverse

/-- Core's blank characters are blank here too. -/
theorem isBlank_of_isWhitespace {c : Char} (h : c.isWhitespace = true) : isBlank c = true := by
  simp only [Char.isWhitespace, Bool.or_eq_true, decide_eq_true_eq] at h
  rcases h with ((h | h) | h) | h <;> subst h <;> decide

/-- Neither parenthesis is blank. -/
@[simp]
theorem isBlank_opening : isBlank '(' = false := by decide

@[simp]
theorem isBlank_closing : isBlank ')' = false := by decide

@[simp]
theorem isBlank_space : isBlank ' ' = true := by decide

end SmallLisp
