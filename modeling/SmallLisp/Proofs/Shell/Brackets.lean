import Mathlib.Data.List.Induction
import SmallLisp.Shell.Balance
import SmallLisp.Shell.Highlight
import SmallLisp.Text.Bytes

/-!
# Matching parentheses

Two parentheses match if what stands between them is balanced (`SmallLisp.IsPair`): it opens as
many lists as it closes, and never closes one that it has not opened. The pairing of a line is
found with a stack instead, of the offsets of the parentheses that are still open. After a text
each offset on the stack is that of an opening parenthesis with nothing but a balanced text
between it and the next one up, or the end (`SmallLisp.OpenAt`); so the top of the stack is what
a closing parenthesis matches, and the two notions agree:

* `SmallLisp.mem_closings_some_iff` – **the pairing gives the matching parentheses**;
* `SmallLisp.mem_closings_none_iff` – and the closing ones that match none;
* `SmallLisp.IsPair.eq_of_closing`, `SmallLisp.IsPair.eq_of_opening` – a parenthesis matches one
  other at most.
-/

namespace SmallLisp

/-! ### Balanced texts -/

/-- **A balanced text** closes all the lists that it opens, and no others. -/
def Balanced (cs : List Char) : Prop := openDepth? 0 cs = some 0

theorem balanced_nil : Balanced [] := rfl

theorem balanced_singleton {c : Char} (hopening : c ≠ '(') (hclosing : c ≠ ')') :
    Balanced [c] := by
  unfold Balanced openDepth?
  split <;> simp_all [openDepth?]

theorem Balanced.append {cs ds : List Char} (hcs : Balanced cs) (hds : Balanced ds) :
    Balanced (cs ++ ds) := by
  rw [Balanced, openDepth?_append, hcs]
  exact hds

/-- More lists that are open to begin with are open at the end, too. -/
theorem openDepth?_add {d k : Nat} {cs : List Char} (h : openDepth? d cs = some k) (n : Nat) :
    openDepth? (d + n) cs = some (k + n) := by
  fun_induction openDepth? d cs with
  | case1 d =>
    obtain rfl := Option.some.inj h
    rfl
  | case2 d cs ih =>
    rw [openDepth?, Nat.add_right_comm]
    exact ih h
  | case3 => cases h
  | case4 cs d ih =>
    rw [Nat.succ_add, openDepth?]
    exact ih h
  | case5 d c cs hopening hclosing ih =>
    rw [openDepth?]
    · exact ih h
    · exact hopening
    · exact hclosing

/-- Parentheses around a balanced text make it a balanced one. -/
theorem Balanced.parenthesize {cs : List Char} (h : Balanced cs) :
    Balanced ('(' :: (cs ++ [')'])) := by
  have hinner : openDepth? 1 cs = some 1 := by simpa using openDepth?_add h 1
  rw [Balanced, openDepth?, openDepth?_append, hinner]
  rfl

/-- Behind a balanced text, a closing parenthesis closes nothing. -/
theorem not_balanced_of_closing {cs : List Char} (h : Balanced cs) (rest : List Char) :
    ¬Balanced (cs ++ ')' :: rest) := by
  rw [Balanced, openDepth?_append, h]
  exact nofun

/-! ### The stack of open parentheses -/

/-- The offsets of the parentheses that are open after a text, the latest first; the text starts
at `offset`, with those of `pending` open. -/
def openParens (pending : List Nat) (offset : Nat) : List Char → List Nat
  | [] => pending
  | c :: cs =>
    let next := offset + c.utf8Size
    if c = '(' then openParens (offset :: pending) next cs
    else if c = ')' then openParens pending.tail next cs
    else openParens pending next cs

theorem openParens_append (pending : List Nat) (offset : Nat) (cs ds : List Char) :
    openParens pending offset (cs ++ ds) =
      openParens (openParens pending offset cs) (offset + byteLength cs) ds := by
  induction cs generalizing pending offset with
  | nil => rfl
  | cons c cs ih =>
    simp only [List.cons_append, openParens, byteLength_cons, ← Nat.add_assoc]
    split
    · exact ih _ _
    · split
      · exact ih _ _
      · exact ih _ _

/-- **What one more character does to the stack.** -/
theorem openParens_concat (cs : List Char) (c : Char) :
    openParens [] 0 (cs ++ [c]) =
      if c = '(' then byteLength cs :: openParens [] 0 cs
      else if c = ')' then (openParens [] 0 cs).tail
      else openParens [] 0 cs := by
  rw [openParens_append, Nat.zero_add]
  rfl

/-- What a text leaves open is on top of what was open before and is not closed by it. -/
theorem exists_openParens_eq {d k : Nat} {cs : List Char} (h : openDepth? d cs = some k)
    (top : List Nat) (htop : top.length = d) (pending : List Nat) (offset : Nat) :
    ∃ top', top'.length = k ∧ openParens (top ++ pending) offset cs = top' ++ pending := by
  fun_induction openDepth? d cs generalizing top offset with
  | case1 d =>
    obtain rfl := Option.some.inj h
    exact ⟨top, htop, rfl⟩
  | case2 d cs ih =>
    rw [openParens, if_pos rfl]
    exact ih h (offset :: top) (by simp [htop]) _
  | case3 => cases h
  | case4 cs d ih =>
    obtain ⟨o, top, rfl⟩ := List.exists_cons_of_length_eq_add_one htop
    rw [openParens, if_neg (by decide), if_pos rfl]
    exact ih h top (by simpa using htop) _
  | case5 d c cs hopening hclosing ih =>
    rw [openParens, if_neg (by simpa using hopening), if_neg (by simpa using hclosing)]
    exact ih h top htop _

/-- **A balanced text leaves the stack as it is.** -/
theorem openParens_of_balanced {cs : List Char} (h : Balanced cs) (pending : List Nat)
    (offset : Nat) : openParens pending offset cs = pending := by
  obtain ⟨top, htop, heq⟩ := exists_openParens_eq h [] rfl pending offset
  rw [List.length_eq_zero_iff.mp htop] at heq
  exact heq

theorem openParens_opening {inner : List Char} (h : Balanced inner) (before : List Char) :
    openParens [] 0 (before ++ '(' :: inner) = byteLength before :: openParens [] 0 before := by
  rw [openParens_append, openParens, if_pos rfl, openParens_of_balanced h, Nat.zero_add]

/-! ### Where the open parentheses are -/

/-- **Marks of open parentheses**, the latest first: each is given by the text in front of its
parenthesis, and what follows the parenthesis up to the next one, or up to the end, is
balanced. -/
inductive OpenAt {α : Type} (mark : List Char → α) : List Char → List α → Prop
  | nil (cs : List Char) : OpenAt mark cs []
  | cons {before inner : List Char} {marks : List α} (h : OpenAt mark before marks)
    (hinner : Balanced inner) : OpenAt mark (before ++ '(' :: inner) (mark before :: marks)

namespace OpenAt

variable {α : Type} {mark : List Char → α} {cs ds : List Char} {m : α} {marks : List α}

theorem append_balanced (h : OpenAt mark cs marks) (hds : Balanced ds) :
    OpenAt mark (cs ++ ds) marks := by
  cases h with
  | nil => exact .nil _
  | cons h hinner =>
    rw [List.append_assoc, List.cons_append]
    exact .cons h (hinner.append hds)

theorem opening (h : OpenAt mark cs marks) : OpenAt mark (cs ++ ['(']) (mark cs :: marks) :=
  .cons h balanced_nil

/-- The latest of the open parentheses, and the others in the text in front of it. -/
theorem exists_cons (h : OpenAt mark cs (m :: marks)) :
    ∃ before inner, cs = before ++ '(' :: inner ∧ Balanced inner ∧ m = mark before ∧
      OpenAt mark before marks := by
  cases h with
  | cons h hinner => exact ⟨_, _, rfl, hinner, rfl, h⟩

/-- A closing parenthesis closes the latest one. -/
theorem closing (h : OpenAt mark cs (m :: marks)) : OpenAt mark (cs ++ [')']) marks := by
  obtain ⟨before, inner, rfl, hinner, -, hbefore⟩ := h.exists_cons
  rw [List.append_assoc, List.cons_append]
  exact hbefore.append_balanced hinner.parenthesize

/-- Only the texts in front of parentheses are marked. -/
theorem congr {mark' : List Char → α} (h : OpenAt mark cs marks)
    (hmark : ∀ before, before <+: cs → mark before = mark' before) : OpenAt mark' cs marks := by
  induction h with
  | nil cs => exact .nil cs
  | @cons before inner marks _ hinner ih =>
    rw [hmark before (List.prefix_append _ _)]
    exact .cons (ih fun b hb => hmark b (hb.trans (List.prefix_append _ _))) hinner

end OpenAt

/-- **The stack holds the offsets of the open parentheses.** -/
theorem openAt_openParens (cs : List Char) : OpenAt byteLength cs (openParens [] 0 cs) := by
  induction cs using List.reverseRecOn with
  | nil => exact .nil []
  | append_singleton cs c ih =>
    rw [openParens_concat]
    split
    · next hc =>
      subst hc
      exact ih.opening
    · split
      · next hc =>
        subst hc
        cases hstack : openParens [] 0 cs with
        | nil => exact .nil _
        | cons o os =>
          rw [hstack] at ih
          exact ih.closing
      · next hopening hclosing => exact ih.append_balanced (balanced_singleton hopening hclosing)

/-- **The top of the stack** is the last opening parenthesis with a balanced text behind it. -/
theorem head?_openParens_eq_some_iff {cs : List Char} {o : Nat} :
    (openParens [] 0 cs).head? = some o ↔
      ∃ before inner, cs = before ++ '(' :: inner ∧ Balanced inner ∧ o = byteLength before := by
  constructor
  · intro h
    have hopen := openAt_openParens cs
    obtain ⟨os, hos⟩ := List.head?_eq_some_iff.mp h
    rw [hos] at hopen
    obtain ⟨before, inner, hcs, hinner, ho, -⟩ := hopen.exists_cons
    exact ⟨before, inner, hcs, hinner, ho⟩
  · rintro ⟨before, inner, rfl, hinner, rfl⟩
    rw [openParens_opening hinner, List.head?_cons]

/-! ### The pairing -/

/-- **Two parentheses of a line that match**, by their offsets. -/
def IsPair (line : List Char) (o d : Nat) : Prop :=
  ∃ before inner after, line = before ++ '(' :: (inner ++ ')' :: after) ∧ Balanced inner ∧
    o = byteLength before ∧ d = byteLength (before ++ '(' :: inner)

theorem isPair_parenthesize {inner : List Char} (h : Balanced inner) (before : List Char) :
    IsPair (before ++ '(' :: inner ++ [')']) (byteLength before)
      (byteLength (before ++ '(' :: inner)) :=
  ⟨before, inner, [], by simp, h, rfl, rfl⟩

/-- A character stands at the front of a text, or further on. -/
theorem exists_cut_cons_iff {c x : Char} {cs : List Char} {P : List Char → Prop} :
    (∃ before after, c :: cs = before ++ x :: after ∧ P before) ↔
      (c = x ∧ P []) ∨ ∃ before after, cs = before ++ x :: after ∧ P (c :: before) := by
  constructor
  · rintro ⟨before, after, hcs, h⟩
    rcases List.cons_eq_append_iff.mp hcs with ⟨rfl, hx⟩ | ⟨before, rfl, hx⟩
    · obtain ⟨rfl, -⟩ := List.cons.inj hx
      exact .inl ⟨rfl, h⟩
    · exact .inr ⟨before, after, hx, h⟩
  · rintro (⟨rfl, h⟩ | ⟨before, after, rfl, h⟩)
    · exact ⟨[], cs, rfl, h⟩
    · exact ⟨c :: before, after, rfl, h⟩

/-- Every closing parenthesis is paired with the top of the stack in front of it. -/
theorem mem_closingsFrom_iff {pending : List Nat} {offset : Nat} {cs : List Char}
    {x : Option Nat} {d : Nat} :
    (x, d) ∈ closingsFrom pending offset cs ↔
      ∃ before after, cs = before ++ ')' :: after ∧ d = offset + byteLength before ∧
        x = (openParens pending offset before).head? := by
  induction cs generalizing pending offset with
  | nil => simp [closingsFrom]
  | cons c cs ih =>
    rw [closingsFrom, exists_cut_cons_iff]
    simp only [openParens, byteLength_cons, ← Nat.add_assoc]
    by_cases hopening : c = '('
    · subst hopening
      simp [ih]
    by_cases hclosing : c = ')'
    · subst hclosing
      simp [ih, and_comm]
    · simp [ih, hopening, hclosing]

theorem mem_closings_iff {line : List Char} {x : Option Nat} {d : Nat} :
    (x, d) ∈ closings line ↔ ∃ before after, line = before ++ ')' :: after ∧
      d = byteLength before ∧ x = (openParens [] 0 before).head? := by
  rw [closings, mem_closingsFrom_iff]
  simp only [Nat.zero_add]

/-- Of the same bytes at the front of a text there are the same characters. -/
theorem cut_unique {before before' after after' : List Char}
    (h : before ++ after = before' ++ after') (hbytes : byteLength before = byteLength before') :
    before = before' ∧ after = after' := by
  have hbefore : before = before' := by
    rw [← takeBytes_append before after, hbytes, h, takeBytes_append]
  subst hbefore
  exact ⟨rfl, List.append_cancel_left h⟩

/-- **The pairing gives the matching parentheses.** -/
theorem mem_closings_some_iff {line : List Char} {o d : Nat} :
    (some o, d) ∈ closings line ↔ IsPair line o d := by
  rw [mem_closings_iff]
  constructor
  · rintro ⟨before, after, rfl, rfl, htop⟩
    obtain ⟨b, inner, rfl, hinner, rfl⟩ := head?_openParens_eq_some_iff.mp htop.symm
    exact ⟨b, inner, after, by simp, hinner, rfl, rfl⟩
  · rintro ⟨b, inner, after, rfl, hinner, rfl, rfl⟩
    refine ⟨b ++ '(' :: inner, after, by simp, rfl, ?_⟩
    exact (head?_openParens_eq_some_iff.mpr ⟨b, inner, rfl, hinner, rfl⟩).symm

/-- **The closing parentheses that match none** are paired with nothing. -/
theorem mem_closings_none_iff {before after : List Char} {c : Char} :
    (none, byteLength before) ∈ closings (before ++ c :: after) ↔
      c = ')' ∧ ¬∃ o, IsPair (before ++ c :: after) o (byteLength before) := by
  simp only [← mem_closings_some_iff, mem_closings_iff]
  constructor
  · rintro ⟨b, a, hline, hbytes, htop⟩
    obtain ⟨rfl, hrest⟩ := cut_unique hline hbytes
    obtain ⟨rfl, rfl⟩ := List.cons.inj hrest
    refine ⟨rfl, ?_⟩
    rintro ⟨o, b', a', hline', hbytes', htop'⟩
    obtain ⟨rfl, -⟩ := cut_unique hline' hbytes'
    cases htop.trans htop'.symm
  · rintro ⟨rfl, hnone⟩
    refine ⟨before, after, rfl, rfl, ?_⟩
    rcases htop : (openParens [] 0 before).head? with _ | o
    · rfl
    · exact absurd ⟨o, before, after, rfl, rfl, htop.symm⟩ hnone

/-! ### One parenthesis, one partner -/

namespace IsPair

variable {line : List Char} {o o' d d' : Nat}

theorem lt (h : IsPair line o d) : o < d := by
  obtain ⟨before, inner, after, -, -, rfl, rfl⟩ := h
  have := Char.utf8Size_pos '('
  rw [byteLength_append, byteLength_cons]
  omega

theorem lt_byteLength (h : IsPair line o d) : d < byteLength line := by
  obtain ⟨before, inner, after, rfl, -, -, rfl⟩ := h
  have := Char.utf8Size_pos ')'
  simp only [byteLength_append, byteLength_cons]
  omega

theorem exists_opening (h : IsPair line o d) :
    ∃ before after, line = before ++ '(' :: after ∧ o = byteLength before := by
  obtain ⟨before, inner, after, hline, -, ho, -⟩ := h
  exact ⟨before, _, hline, ho⟩

theorem exists_closing (h : IsPair line o d) :
    ∃ before after, line = before ++ ')' :: after ∧ d = byteLength before := by
  obtain ⟨before, inner, after, rfl, -, -, hd⟩ := h
  exact ⟨before ++ '(' :: inner, after, by simp, hd⟩

/-- **A closing parenthesis matches one opening one.** -/
theorem eq_of_closing (h : IsPair line o d) (h' : IsPair line o' d) : o = o' := by
  obtain ⟨b, a, hline, hd, htop⟩ := mem_closings_iff.mp (mem_closings_some_iff.mpr h)
  obtain ⟨b', a', hline', hd', htop'⟩ := mem_closings_iff.mp (mem_closings_some_iff.mpr h')
  obtain ⟨rfl, -⟩ := cut_unique (hline.symm.trans hline') (hd.symm.trans hd')
  exact Option.some.inj (htop.trans htop'.symm)

/-- **An opening parenthesis matches one closing one.** -/
theorem eq_of_opening (h : IsPair line o d) (h' : IsPair line o d') : d = d' := by
  obtain ⟨before, inner, after, hline, hinner, ho, rfl⟩ := h
  obtain ⟨before', inner', after', hline', hinner', ho', rfl⟩ := h'
  obtain ⟨rfl, hrest⟩ := cut_unique (hline.symm.trans hline') (ho.symm.trans ho')
  -- of two texts up to a closing parenthesis that are both balanced, neither is longer
  rcases List.append_eq_append_iff.mp (List.cons.inj hrest).2 with
    ⟨w, rfl, hw⟩ | ⟨w, rfl, hw⟩
  · rcases List.cons_eq_append_iff.mp hw with ⟨rfl, -⟩ | ⟨w, rfl, -⟩
    · rw [List.append_nil]
    · exact absurd hinner' (not_balanced_of_closing hinner w)
  · rcases List.cons_eq_append_iff.mp hw with ⟨rfl, -⟩ | ⟨w, rfl, -⟩
    · rw [List.append_nil]
    · exact absurd hinner (not_balanced_of_closing hinner' w)

/-- No parenthesis opens and closes. -/
theorem ne_of_isPair (h : IsPair line o d) (h' : IsPair line o' d') : o ≠ d' := by
  rintro rfl
  obtain ⟨b, a, hline, ho⟩ := h.exists_opening
  obtain ⟨b', a', hline', ho'⟩ := h'.exists_closing
  obtain ⟨-, hrest⟩ := cut_unique (hline.symm.trans hline') (ho.symm.trans ho')
  cases (List.cons.inj hrest).1

end IsPair

/-- **What matches in a line with one more character**: what matches in the line, and the character
with the top of the stack, if it is a closing parenthesis. -/
theorem isPair_concat_iff {line : List Char} {c : Char} {o d : Nat} :
    IsPair (line ++ [c]) o d ↔ IsPair line o d ∨
      (c = ')' ∧ d = byteLength line ∧ (openParens [] 0 line).head? = some o) := by
  rw [← mem_closings_some_iff, ← mem_closings_some_iff, mem_closings_iff, mem_closings_iff]
  constructor
  · rintro ⟨before, after, hline, hd, htop⟩
    rcases List.eq_nil_or_concat after with rfl | ⟨after, c', rfl⟩
    · obtain ⟨rfl, hc⟩ := List.append_inj' hline rfl
      exact .inr ⟨(List.cons.inj hc).1, hd, htop.symm⟩
    · rw [List.concat_eq_append, ← List.cons_append, ← List.append_assoc] at hline
      exact .inl ⟨before, after, (List.append_inj' hline rfl).1, hd, htop⟩
  · rintro (⟨before, after, rfl, hd, htop⟩ | ⟨rfl, hd, htop⟩)
    · exact ⟨before, after ++ [c], by simp, hd, htop⟩
    · exact ⟨line, [], rfl, hd, htop.symm⟩

theorem isPair_last_iff {line : List Char} {c : Char} {o : Nat} :
    IsPair (line ++ [c]) o (byteLength line) ↔
      c = ')' ∧ (openParens [] 0 line).head? = some o := by
  rw [isPair_concat_iff, or_iff_right fun h => Nat.lt_irrefl _ h.lt_byteLength]
  exact and_congr_right fun _ => and_iff_right rfl

end SmallLisp
