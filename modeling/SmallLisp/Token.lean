import SmallLisp.Span
import SmallLisp.Text.Blank
import SmallLisp.Text.Bytes

/-!
# Tokens

A text is split into parentheses, which are always tokens of their own, and atoms,
the longest runs of characters that are neither blank nor a parenthesis. Quotes have
no meaning at this level: an atom ends at a blank whether or not it has opened a
quote. Blank characters separate tokens and belong to none.

The scanner walks over the characters and keeps the byte offset of the one it is at,
so that every token knows its span.
-/

namespace SmallLisp

/-- The kinds of token. -/
inductive Token.Kind where
  /-- An opening parenthesis. -/
  | opening
  /-- A closing parenthesis. -/
  | closing
  /-- A run of other characters, whose meaning the reader decides. -/
  | atom (text : String)
deriving DecidableEq

/-- **A token**: its kind and the part of the source it was read from. -/
structure Token where
  /-- What was read. -/
  kind : Token.Kind
  /-- Where it was read. -/
  span : Span
deriving DecidableEq

namespace Token

/-- The source text of a token. -/
def Kind.text : Kind → String
  | .opening => "("
  | .closing => ")"
  | .atom text => text

/-- The characters that atoms are made of. -/
def isAtomChar (c : Char) : Bool := !isBlank c && c != '(' && c != ')'

/-- **The tokens of a text**, whose first character stands at byte `offset` of the
source. -/
def scan (offset : Nat) : List Char → List Token
  | [] => []
  | c :: cs =>
    if isBlank c then scan (offset + c.utf8Size) cs
    else if c = '(' then ⟨.opening, ⟨offset, offset + 1⟩⟩ :: scan (offset + 1) cs
    else if c = ')' then ⟨.closing, ⟨offset, offset + 1⟩⟩ :: scan (offset + 1) cs
    else
      let word := c :: cs.takeWhile isAtomChar
      let stop := offset + byteLength word
      ⟨.atom (String.ofList word), ⟨offset, stop⟩⟩ :: scan stop (cs.dropWhile isAtomChar)
termination_by cs => cs.length
decreasing_by
  all_goals simp only [List.length_cons]
  all_goals have := (cs.dropWhile_sublist isAtomChar).length_le
  all_goals omega

@[simp]
theorem scan_nil (offset : Nat) : scan offset [] = [] := by rw [scan]

theorem scan_cons_of_isBlank {c : Char} (h : isBlank c = true) (offset : Nat) (cs : List Char) :
    scan offset (c :: cs) = scan (offset + c.utf8Size) cs := by
  rw [scan, if_pos h]

@[simp]
theorem scan_cons_opening (offset : Nat) (cs : List Char) :
    scan offset ('(' :: cs) = ⟨.opening, ⟨offset, offset + 1⟩⟩ :: scan (offset + 1) cs := by
  rw [scan]
  simp

@[simp]
theorem scan_cons_closing (offset : Nat) (cs : List Char) :
    scan offset (')' :: cs) = ⟨.closing, ⟨offset, offset + 1⟩⟩ :: scan (offset + 1) cs := by
  rw [scan]
  simp

theorem scan_cons_of_isAtomChar {c : Char} (h : isAtomChar c = true) (offset : Nat)
    (cs : List Char) :
    scan offset (c :: cs) =
      ⟨.atom (String.ofList (c :: cs.takeWhile isAtomChar)),
        ⟨offset, offset + byteLength (c :: cs.takeWhile isAtomChar)⟩⟩ ::
      scan (offset + byteLength (c :: cs.takeWhile isAtomChar)) (cs.dropWhile isAtomChar) := by
  simp only [isAtomChar, Bool.and_eq_true, Bool.not_eq_true', bne_iff_ne, ne_eq] at h
  obtain ⟨⟨hb, ho⟩, hc⟩ := h
  rw [scan, if_neg (by simp [hb]), if_neg ho, if_neg hc]

/-- A text has no token exactly when all of it is blank. -/
theorem scan_eq_nil_iff {offset : Nat} {cs : List Char} :
    scan offset cs = [] ↔ ∀ c ∈ cs, isBlank c = true := by
  fun_induction scan offset cs with
  | case1 => simp
  | case2 offset c cs h ih => simp [h, ih]
  | case3 offset cs h _ => simp
  | case4 offset cs h _ _ => simp
  | case5 offset c cs h _ _ word stop _ => simp [h]

end Token

end SmallLisp
