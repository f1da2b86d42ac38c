import Mathlib.Data.List.Induction
import SmallLisp.Proofs.Shell.Brackets

/-!
# What the highlighter paints

A highlighted line is the line itself, with the style of each character around it
(`SmallLisp.IsStyle`): quotes, closing parentheses that match nothing, and the one pair at the
cursor, if there is one (`SmallLisp.IsPair.eq_of_atCursor`).

A terminal line need not be painted in two passes, one to find the pairs and one to paint. In
one pass an opening parenthesis is written as it is, and its place in the output is remembered;
when the parenthesis that closes it comes and the pair is at the cursor, the output is patched
there (`SmallLisp.Patching`). Control sequences have gone into the output in between, before the
place and behind it. What is still open stays where it was remembered to be, since a patch is
made at the latest of the open parentheses, and everything in front of that is as it was
(`SmallLisp.Patching.Tracks`). So every patch hits its parenthesis, and the output is the same.

* `SmallLisp.isStyle_styleAt` – **a character is painted in its style**;
* `SmallLisp.Patching.Tracks.step` – what a character does to the output and to the places;
* `SmallLisp.highlight_paints_brackets` – **what is painted**, and that one pass paints it.
-/

namespace SmallLisp

variable {cursor : Nat} {line : List Char}

/-! ### Styles -/

/-- A pair of parentheses that the cursor stands behind one of. -/
def AtCursor (cursor o d : Nat) : Prop := o + 1 = cursor ∨ d + 1 = cursor

instance (cursor o d : Nat) : Decidable (AtCursor cursor o d) :=
  inferInstanceAs (Decidable (_ ∨ _))

/-- **There is one pair at the cursor at most.** -/
theorem IsPair.eq_of_atCursor {o d o' d' : Nat} (h : IsPair line o d)
    (hcursor : AtCursor cursor o d) (h' : IsPair line o' d') (hcursor' : AtCursor cursor o' d') :
    o = o' ∧ d = d' := by
  have hod := h.ne_of_isPair h'
  have hdo := h'.ne_of_isPair h
  rcases hcursor with hcursor | hcursor <;> rcases hcursor' with hcursor' | hcursor'
  · obtain rfl : o = o' := by omega
    exact ⟨rfl, h.eq_of_opening h'⟩
  · omega
  · omega
  · obtain rfl : d = d' := by omega
    exact ⟨h.eq_of_closing h', rfl⟩

theorem pairAtCursor?_eq_some_iff {o d : Nat} :
    pairAtCursor? (closings line) cursor = some (o, d) ↔
      IsPair line o d ∧ AtCursor cursor o d := by
  have hsound : ∀ o d, pairAtCursor? (closings line) cursor = some (o, d) →
      IsPair line o d ∧ AtCursor cursor o d := by
    intro o d h
    obtain ⟨⟨x, d'⟩, hmem, hp⟩ := List.exists_of_findSome?_eq_some h
    cases x with
    | none => cases hp
    | some o' =>
      rw [Option.ite_none_right_eq_some] at hp
      obtain ⟨hcursor, hp⟩ := hp
      obtain ⟨rfl, rfl⟩ := Prod.mk.inj (Option.some.inj hp)
      exact ⟨mem_closings_some_iff.mp hmem, hcursor⟩
  refine ⟨hsound o d, fun ⟨h, hcursor⟩ => ?_⟩
  rcases hfound : pairAtCursor? (closings line) cursor with _ | ⟨o', d'⟩
  · -- the pair is looked at, too
    have hnone := List.findSome?_eq_none_iff.mp hfound _ (mem_closings_some_iff.mpr h)
    change (if AtCursor cursor o d then some (o, d) else none) = none at hnone
    rw [if_pos hcursor] at hnone
    cases hnone
  · obtain ⟨h', hcursor'⟩ := hsound o' d' hfound
    obtain ⟨rfl, rfl⟩ := h.eq_of_atCursor hcursor h' hcursor'
    rfl

/-- **What calls for a style** at a character that stands at an offset of a line. Nothing calls
for the plain one. -/
def CallsFor (line : List Char) (cursor offset : Nat) (c : Char) : Style → Prop
  | .plain => False
  | .quote => c = '"'
  | .stray => c = ')' ∧ ¬∃ o, IsPair line o offset
  | .pairOpening => ∃ d, IsPair line offset d ∧ AtCursor cursor offset d
  | .pairClosing => ∃ o, IsPair line o offset ∧ AtCursor cursor o offset

/-- **The style of a character**: the one that it calls for, and the plain one if there is none. -/
def IsStyle (line : List Char) (cursor offset : Nat) (c : Char) (style : Style) : Prop :=
  ∀ s, s ≠ .plain → (style = s ↔ CallsFor line cursor offset c s)

theorem IsStyle.eq_plain {offset : Nat} {c : Char} {style : Style}
    (h : IsStyle line cursor offset c style) (hnone : ∀ s, ¬CallsFor line cursor offset c s) :
    style = .plain := by
  by_contra hne
  exact hnone style ((h style hne).mp rfl)

theorem IsStyle.eq_of_callsFor {offset : Nat} {c : Char} {style s : Style}
    (h : IsStyle line cursor offset c style) (hs : CallsFor line cursor offset c s) :
    style = s := by
  refine (h s ?_).mpr hs
  rintro rfl
  exact hs

/-- Characters that call for the same have the same style. -/
theorem IsStyle.unique {line' : List Char} {offset offset' : Nat} {c c' : Char}
    {style style' : Style} (h : IsStyle line cursor offset c style)
    (h' : IsStyle line' cursor offset' c' style')
    (hsame : ∀ s, CallsFor line cursor offset c s ↔ CallsFor line' cursor offset' c' s) :
    style = style' := by
  by_cases hplain : style = .plain
  · rw [hplain]
    refine (h'.eq_plain fun s hs => ?_).symm
    -- the first one would have that style, too
    have hs' := (hsame s).mpr hs
    rw [← h.eq_of_callsFor hs', hplain] at hs
    exact hs
  · exact (h'.eq_of_callsFor ((hsame style).mp ((h style hplain).mp rfl))).symm

section At

variable {before after : List Char} {c : Char}

/-- What is at an offset opens or closes a pair only if it is a parenthesis. -/
theorem IsPair.eq_opening {d : Nat} (h : IsPair (before ++ c :: after) (byteLength before) d) :
    c = '(' := by
  obtain ⟨b, a, hline, ho⟩ := h.exists_opening
  obtain ⟨-, hrest⟩ := cut_unique hline ho
  exact (List.cons.inj hrest).1

theorem IsPair.eq_closing {o : Nat} (h : IsPair (before ++ c :: after) o (byteLength before)) :
    c = ')' := by
  obtain ⟨b, a, hline, hd⟩ := h.exists_closing
  obtain ⟨-, hrest⟩ := cut_unique hline hd
  exact (List.cons.inj hrest).1

/-- **A character calls for one style at most.** -/
theorem CallsFor.unique {s s' : Style}
    (h : CallsFor (before ++ c :: after) cursor (byteLength before) c s)
    (h' : CallsFor (before ++ c :: after) cursor (byteLength before) c s') : s = s' := by
  -- which character it is tells the styles apart, but for the two of a closing parenthesis
  have hchar : ∀ {s}, CallsFor (before ++ c :: after) cursor (byteLength before) c s →
      c = match s with
        | .quote => '"'
        | .pairOpening => '('
        | _ => ')' := by
    intro s h
    cases s with
    | plain => exact h.elim
    | quote => exact h
    | stray => exact h.1
    | pairOpening =>
      obtain ⟨d, h, -⟩ := h
      exact h.eq_opening
    | pairClosing =>
      obtain ⟨o, h, -⟩ := h
      exact h.eq_closing
  have hsame := (hchar h).symm.trans (hchar h')
  cases s <;> cases s' <;> first
    | rfl
    | exact absurd hsame (by decide)
    | exact h.elim
    | exact h'.elim
    | exact absurd ⟨_, h'.choose_spec.1⟩ h.2
    | exact absurd ⟨_, h.choose_spec.1⟩ h'.2

theorem CallsFor.isStyle {s : Style}
    (h : CallsFor (before ++ c :: after) cursor (byteLength before) c s) :
    IsStyle (before ++ c :: after) cursor (byteLength before) c s := by
  refine fun s' _ => ⟨?_, fun h' => h.unique h'⟩
  rintro rfl
  exact h

theorem isStyle_plain {offset : Nat} (hnone : ∀ s, ¬CallsFor line cursor offset c s) :
    IsStyle line cursor offset c .plain :=
  fun s hs => iff_of_false hs.symm (hnone s)

/-- **A character is painted in its style.** -/
theorem isStyle_styleAt (cursor : Nat) (before : List Char) (c : Char) (after : List Char) :
    IsStyle (before ++ c :: after) cursor (byteLength before) c
      (styleAt (closings (before ++ c :: after)) cursor (byteLength before) c) := by
  unfold styleAt
  split
  · next hquote => exact CallsFor.isStyle (s := .quote) hquote
  next hquote =>
  split
  · next hstray => exact CallsFor.isStyle (s := .stray) (mem_closings_none_iff.mp hstray)
  next hstray =>
  rw [mem_closings_none_iff] at hstray
  -- what is left is to find the pair at the cursor, if there is one
  split
  · next o d hfound =>
    obtain ⟨hpair, hcursor⟩ := pairAtCursor?_eq_some_iff.mp hfound
    split
    · next ho =>
      subst ho
      exact CallsFor.isStyle (s := .pairOpening) ⟨d, hpair, hcursor⟩
    next ho =>
    split
    · next hd =>
      subst hd
      exact CallsFor.isStyle (s := .pairClosing) ⟨o, hpair, hcursor⟩
    next hd =>
    refine isStyle_plain fun s => ?_
    cases s with
    | plain => exact id
    | quote => exact hquote
    | stray => exact hstray
    | pairOpening =>
      rintro ⟨d', hpair', hcursor'⟩
      exact ho (hpair'.eq_of_atCursor hcursor' hpair hcursor).1
    | pairClosing =>
      rintro ⟨o', hpair', hcursor'⟩
      exact hd (hpair'.eq_of_atCursor hcursor' hpair hcursor).2
  · next hfound =>
    refine isStyle_plain fun s => ?_
    cases s with
    | plain => exact id
    | quote => exact hquote
    | stray => exact hstray
    | pairOpening =>
      rintro ⟨d, hpair⟩
      cases hfound.symm.trans (pairAtCursor?_eq_some_iff.mpr hpair)
    | pairClosing =>
      rintro ⟨o, hpair⟩
      cases hfound.symm.trans (pairAtCursor?_eq_some_iff.mpr hpair)

end At

/-! ### Painting -/

/-- The characters from an offset on, each with its style. -/
def styledFrom (pairs : List (Option Nat × Nat)) (cursor offset : Nat) :
    List Char → List (Style × Char)
  | [] => []
  | c :: cs =>
    (styleAt pairs cursor offset c, c) :: styledFrom pairs cursor (offset + c.utf8Size) cs

/-- What is written for characters with their styles. -/
def paintAll (styled : List (Style × Char)) : List Char :=
  styled.flatMap fun p => (p.1.paint p.2).toList

theorem toList_paintFrom (pairs : List (Option Nat × Nat)) (cursor offset : Nat) (cs : List Char) :
    (paintFrom pairs cursor offset cs).toList = paintAll (styledFrom pairs cursor offset cs) := by
  induction cs generalizing offset with
  | nil => rfl
  | cons c cs ih =>
    rw [paintFrom, String.toList_append, ih]
    rfl

theorem map_snd_styledFrom (pairs : List (Option Nat × Nat)) (cursor offset : Nat)
    (cs : List Char) : (styledFrom pairs cursor offset cs).map Prod.snd = cs := by
  induction cs generalizing offset with
  | nil => rfl
  | cons c cs ih => rw [styledFrom, List.map_cons, ih]

theorem styledFrom_append (pairs : List (Option Nat × Nat)) (cursor offset : Nat)
    (cs ds : List Char) :
    styledFrom pairs cursor offset (cs ++ ds) =
      styledFrom pairs cursor offset cs ++
        styledFrom pairs cursor (offset + byteLength cs) ds := by
  induction cs generalizing offset with
  | nil => rfl
  | cons c cs ih =>
    rw [List.cons_append, styledFrom, styledFrom, ih, List.cons_append, byteLength_cons,
      Nat.add_assoc]

/-- Where two pairings give the same styles, the same is painted. -/
theorem styledFrom_congr {pairs pairs' : List (Option Nat × Nat)} {offset : Nat} {cs : List Char}
    (h : ∀ before c after, cs = before ++ c :: after →
      styleAt pairs cursor (offset + byteLength before) c =
        styleAt pairs' cursor (offset + byteLength before) c) :
    styledFrom pairs cursor offset cs = styledFrom pairs' cursor offset cs := by
  induction cs generalizing offset with
  | nil => rfl
  | cons c cs ih =>
    have hc := h [] c cs rfl
    rw [byteLength_nil, Nat.add_zero] at hc
    rw [styledFrom, styledFrom, hc]
    refine congrArg _ (ih fun before d after hcs => ?_)
    have hd := h (c :: before) d after (by rw [hcs, List.cons_append])
    rwa [byteLength_cons, ← Nat.add_assoc] at hd

/-- A character with its style stands in the line where the characters in front of it end. -/
theorem styleAt_of_styledFrom {pairs : List (Option Nat × Nat)} {offset : Nat} {cs : List Char}
    {before after : List (Style × Char)} {style : Style} {c : Char}
    (h : styledFrom pairs cursor offset cs = before ++ (style, c) :: after) :
    style = styleAt pairs cursor (offset + byteLength (before.map Prod.snd)) c := by
  induction cs generalizing offset before with
  | nil => simp [styledFrom] at h
  | cons d cs ih =>
    rw [styledFrom] at h
    cases before with
    | nil =>
      obtain ⟨hd, -⟩ := List.cons.inj h
      obtain ⟨rfl, rfl⟩ := Prod.mk.inj hd
      rfl
    | cons p before =>
      obtain ⟨rfl, hrest⟩ := List.cons.inj h
      rw [List.map_cons, byteLength_cons, ← Nat.add_assoc]
      exact ih hrest

/-! ### Painting in one pass -/

/-- Puts characters in the place of the one of a single byte at an offset. There is no result if
no character starts at the offset, or if it has more bytes. -/
def replaceByte? (patch : List Char) : Nat → List Char → Option (List Char)
  | _, [] => none
  | 0, c :: cs => if c.utf8Size = 1 then some (patch ++ cs) else none
  | n + 1, c :: cs =>
    if c.utf8Size ≤ n + 1 then (replaceByte? patch (n + 1 - c.utf8Size) cs).map (c :: ·) else none

/-- **What has been painted of a line**, with the open parentheses, the latest first: where they
are in the output, and where they are in the line. -/
structure Patching where
  out : List Char
  opened : List (Nat × Nat)

namespace Patching

/-- Writes a character in a style. -/
def write (p : Patching) (style : Style) (c : Char) : Patching :=
  { p with out := p.out ++ (style.paint c).toList }

/-- **Paints one more character**, which stands at the given offset of the line. If it closes the
pair at the cursor, the parenthesis that opens the pair is painted, too, in the output that there
is. -/
def step (cursor offset : Nat) (c : Char) (p : Patching) : Option Patching :=
  if c = '"' then some (p.write .quote c)
  else if c = '(' then
    some { p.write .plain c with opened := (byteLength p.out, offset) :: p.opened }
  else if c = ')' then
    match p.opened with
    | [] => some (p.write .stray c)
    | (place, opening) :: opened =>
      if AtCursor cursor opening offset then
        (replaceByte? (Style.pairOpening.paint '(').toList place (p.write .pairClosing c).out).map
          (⟨·, opened⟩)
      else some { p.write .plain c with opened := opened }
  else some (p.write .plain c)

/-- Paints the characters from an offset on. -/
def run (cursor offset : Nat) : List Char → Patching → Option Patching
  | [], p => some p
  | c :: cs, p => (p.step cursor offset c).bind (run cursor (offset + c.utf8Size) cs)

end Patching

/-- **A line painted in one pass**, if every patch finds a character in its place. -/
def highlightInOnePass? (line : String) (cursor : Nat) : Option String :=
  (Patching.run cursor 0 line.toList ⟨[], []⟩).map fun p => String.ofList p.out

/-- A character of one byte is replaced, and nothing else. -/
theorem replaceByte?_append {patch before : List Char} {c : Char} (hc : c.utf8Size = 1)
    (after : List Char) :
    replaceByte? patch (byteLength before) (before ++ c :: after) =
      some (before ++ (patch ++ after)) := by
  induction before with
  | nil => rw [byteLength_nil, List.nil_append, replaceByte?, if_pos hc, List.nil_append]
  | cons d before ih =>
    obtain ⟨n, hn⟩ : ∃ n, byteLength (d :: before) = n + 1 :=
      Nat.exists_eq_succ_of_ne_zero fun h => nomatch byteLength_eq_zero_iff.mp h
    have hrest : n + 1 - d.utf8Size = byteLength before := by
      rw [← hn, byteLength_cons, Nat.add_sub_cancel_left]
    have hle : d.utf8Size ≤ n + 1 := by
      rw [← hn, byteLength_cons]
      exact Nat.le_add_right _ _
    rw [hn, List.cons_append, replaceByte?, if_pos hle, hrest, ih]
    rfl

namespace Patching

theorem run_concat (offset : Nat) (cs : List Char) (c : Char) (p : Patching) :
    run cursor offset (cs ++ [c]) p =
      (run cursor offset cs p).bind (step cursor (offset + byteLength cs) c) := by
  induction cs generalizing offset p with
  | nil =>
    rw [List.nil_append, run, run, Option.bind_some, byteLength_nil, Nat.add_zero]
    exact Option.bind_fun_some _
  | cons d cs ih =>
    rw [List.cons_append, run, run, Option.bind_assoc, byteLength_cons, ← Nat.add_assoc]
    exact congrArg _ (funext fun q => ih _ q)

/-- What is painted of a part of a line, by the pairing of the line. -/
def painted (line : List Char) (cursor : Nat) (part : List Char) : List Char :=
  paintAll (styledFrom (closings line) cursor 0 part)

/-- Where a parenthesis is in the output and in the line, by what stands in front of it. -/
def place (line : List Char) (cursor : Nat) (before : List Char) : Nat × Nat :=
  (byteLength (painted line cursor before), byteLength before)

/-- **The output is what is painted of the line so far**, and the open parentheses are where they
are remembered to be. -/
structure Tracks (cursor : Nat) (line : List Char) (p : Patching) : Prop where
  out : p.out = painted line cursor line
  opened : OpenAt (place line cursor) line p.opened
  offsets : p.opened.map Prod.snd = openParens [] 0 line

/-- **One more character leaves the styles as they are**, unless it closes the pair at the cursor:
then the parenthesis that opens the pair is painted another way. -/
theorem styleAt_concat {before after : List Char} {c d : Char} (hline : line = before ++ c :: after)
    (hpair : ¬(IsPair (line ++ [d]) (byteLength before) (byteLength line) ∧
      AtCursor cursor (byteLength before) (byteLength line))) :
    styleAt (closings line) cursor (byteLength before) c =
      styleAt (closings (line ++ [d])) cursor (byteLength before) c := by
  have hstyle := isStyle_styleAt cursor before c after
  have hstyle' := isStyle_styleAt cursor before c (after ++ [d])
  have hlt : byteLength before < byteLength line := by
    have := Char.utf8Size_pos c
    rw [hline, byteLength_append, byteLength_cons]
    omega
  have hline' : before ++ c :: (after ++ [d]) = line ++ [d] := by simp [hline]
  rw [← hline] at hstyle
  rw [hline'] at hstyle'
  have hclosing : ∀ o, IsPair line o (byteLength before) ↔
      IsPair (line ++ [d]) o (byteLength before) := by
    intro o
    rw [isPair_concat_iff, or_iff_left fun h => absurd h.2.1 (Nat.ne_of_lt hlt)]
  refine hstyle.unique hstyle' fun s => ?_
  cases s with
  | plain | quote => exact Iff.rfl
  | stray => exact and_congr_right' (not_congr (exists_congr hclosing))
  | pairClosing => exact exists_congr fun o => and_congr_left' (hclosing o)
  | pairOpening =>
    refine exists_congr fun e => and_congr_left fun hcursor => ?_
    rw [isPair_concat_iff]
    refine ⟨.inl, fun h => h.resolve_right fun ⟨hd, he, htop⟩ => ?_⟩
    subst he
    exact hpair ⟨isPair_concat_iff.mpr (.inr ⟨hd, rfl, htop⟩), hcursor⟩

/-- What is painted of a part of the line changes only if the parenthesis that opens the pair at the
cursor is in it. -/
theorem painted_concat {part : List Char} {d : Char} (hpart : part <+: line)
    (hpair : ∀ before after, part = before ++ '(' :: after →
      ¬(IsPair (line ++ [d]) (byteLength before) (byteLength line) ∧
        AtCursor cursor (byteLength before) (byteLength line))) :
    painted (line ++ [d]) cursor part = painted line cursor part := by
  refine congrArg paintAll (styledFrom_congr fun before c after hcut => ?_).symm
  obtain ⟨rest, rfl⟩ := hpart
  subst hcut
  rw [Nat.zero_add]
  have hline : before ++ c :: after ++ rest = before ++ c :: (after ++ rest) := by simp
  refine styleAt_concat hline fun h => ?_
  -- what opens a pair is an opening parenthesis
  have hopening : c = '(' := by
    have hpair' := h.1
    rw [hline, List.append_assoc, List.cons_append] at hpair'
    exact hpair'.eq_opening
  exact hpair before after (by rw [hopening]) h

theorem painted_append (line part rest : List Char) :
    painted line cursor (part ++ rest) = painted line cursor part ++
      paintAll (styledFrom (closings line) cursor (byteLength part) rest) := by
  rw [painted, styledFrom_append, Nat.zero_add, paintAll, List.flatMap_append]
  rfl

/-- A character of a line is painted in its style. -/
theorem painted_cons {style : Style} {before rest : List Char} {c : Char}
    (h : styleAt (closings line) cursor (byteLength before) c = style) :
    painted line cursor (before ++ c :: rest) =
      painted line cursor before ++ ((style.paint c).toList ++
        paintAll (styledFrom (closings line) cursor (byteLength before + c.utf8Size) rest)) := by
  rw [painted_append, styledFrom, h]
  rfl

/-- **The last character is plain** if it is neither a quote nor a parenthesis that closes nothing
or the pair at the cursor. -/
theorem styleAt_last {c : Char} (hquote : c ≠ '"')
    (hclosing : c = ')' → ∃ o, IsPair (line ++ [c]) o (byteLength line) ∧
      ¬AtCursor cursor o (byteLength line)) :
    styleAt (closings (line ++ [c])) cursor (byteLength line) c = .plain := by
  refine (isStyle_styleAt cursor line c []).eq_plain fun s => ?_
  cases s with
  | plain => exact id
  | quote => exact hquote
  | stray =>
    rintro ⟨hc, hno⟩
    obtain ⟨o, ho, -⟩ := hclosing hc
    exact hno ⟨o, ho⟩
  | pairOpening =>
    rintro ⟨d, h, -⟩
    have hlt := h.lt
    rw [isPair_concat_iff] at h
    rcases h with h | ⟨-, rfl, -⟩
    · exact absurd h.lt_byteLength (Nat.lt_asymm hlt)
    · exact Nat.lt_irrefl _ hlt
  | pairClosing =>
    rintro ⟨o, h, hcursor⟩
    obtain ⟨o', h', hcursor'⟩ := hclosing h.eq_closing
    rw [h.eq_of_closing h'] at hcursor
    exact hcursor' hcursor

/-- **A character that closes no pair at the cursor** changes nothing that is painted, nor the
places. -/
theorem Tracks.write {p : Patching} {style : Style} {c : Char} (h : Tracks cursor line p)
    (hpair : ∀ o, IsPair (line ++ [c]) o (byteLength line) →
      ¬AtCursor cursor o (byteLength line))
    (hstyle : styleAt (closings (line ++ [c])) cursor (byteLength line) c = style) :
    p.out = painted (line ++ [c]) cursor line ∧
      (p.write style c).out = painted (line ++ [c]) cursor (line ++ [c]) ∧
      OpenAt (place (line ++ [c]) cursor) line p.opened := by
  have hsame : ∀ part, part <+: line →
      painted (line ++ [c]) cursor part = painted line cursor part :=
    fun part hpart => painted_concat hpart fun before after _ hb => hpair _ hb.1 hb.2
  have hout : p.out = painted (line ++ [c]) cursor line := by
    rw [h.out, hsame line (List.prefix_refl _)]
  refine ⟨hout, ?_, h.opened.congr fun before hbefore => ?_⟩
  · rw [Patching.write, hout, painted_cons hstyle, styledFrom, paintAll, List.flatMap_nil,
      List.append_nil]
  · rw [place, place, hsame before hbefore]

section Closing

variable {before inner : List Char} (hinner : Balanced inner)

include hinner

/-- The parenthesis that closes a list closes no other one. -/
theorem not_isPair_closing {o : Nat} (ho : o ≠ byteLength before) :
    ¬(IsPair (before ++ '(' :: inner ++ [')']) o (byteLength (before ++ '(' :: inner)) ∧
      AtCursor cursor o (byteLength (before ++ '(' :: inner))) :=
  fun h => ho (h.1.eq_of_closing (isPair_parenthesize hinner before))

/-- What stands in front of a list is painted the same when the list is closed. -/
theorem painted_before_closing {part : List Char} (hpart : part <+: before) :
    painted (before ++ '(' :: inner ++ [')']) cursor part =
      painted (before ++ '(' :: inner) cursor part := by
  refine painted_concat (hpart.trans (List.prefix_append _ _)) fun b a hb => ?_
  refine not_isPair_closing hinner ?_
  obtain ⟨rest, rfl⟩ := hpart
  have := Char.utf8Size_pos '('
  rw [hb, List.append_assoc, byteLength_append, List.cons_append, byteLength_cons]
  omega

/-- What stands in a list is painted the same when the list is closed. -/
theorem styledFrom_inside_closing :
    styledFrom (closings (before ++ '(' :: inner ++ [')'])) cursor
        (byteLength before + '('.utf8Size) inner =
      styledFrom (closings (before ++ '(' :: inner)) cursor
        (byteLength before + '('.utf8Size) inner := by
  refine (styledFrom_congr fun b c a hb => ?_).symm
  have hoffset : byteLength before + '('.utf8Size + byteLength b =
      byteLength (before ++ '(' :: b) := by
    rw [byteLength_append, byteLength_cons, Nat.add_assoc]
  have hat : before ++ '(' :: inner = (before ++ '(' :: b) ++ c :: a := by simp [hb]
  rw [hoffset]
  refine styleAt_concat hat (not_isPair_closing hinner ?_)
  have := Char.utf8Size_pos '('
  rw [← hoffset]
  omega

/-- An opening parenthesis is plain as long as nothing closes it. -/
theorem styleAt_opening :
    styleAt (closings (before ++ '(' :: inner)) cursor (byteLength before) '(' = .plain := by
  refine (isStyle_styleAt cursor before '(' inner).eq_plain fun s => ?_
  cases s with
  | plain => exact id
  | quote => exact (by decide : '(' ≠ '"')
  | stray => exact fun h => absurd h.1 (by decide)
  | pairOpening =>
    rintro ⟨d, h, -⟩
    -- it would be closed a second time
    have hd := (isPair_concat_iff.mpr (.inl h)).eq_of_opening (isPair_parenthesize hinner before)
    exact absurd hd (Nat.ne_of_lt h.lt_byteLength)
  | pairClosing =>
    rintro ⟨o, h, -⟩
    cases h.eq_closing

/-- **What the parenthesis that closes the pair at the cursor changes**: the one that opens it
is painted, and the rest is as before. -/
theorem painted_closing
    (hcursor : AtCursor cursor (byteLength before) (byteLength (before ++ '(' :: inner))) :
    ∃ inside,
      painted (before ++ '(' :: inner) cursor (before ++ '(' :: inner) =
        painted (before ++ '(' :: inner) cursor before ++ '(' :: inside ∧
      painted (before ++ '(' :: inner ++ [')']) cursor (before ++ '(' :: inner ++ [')']) =
        painted (before ++ '(' :: inner) cursor before ++
          ((Style.pairOpening.paint '(').toList ++
            (inside ++ (Style.pairClosing.paint ')').toList)) := by
  have hpair := isPair_parenthesize hinner before
  have hopening : styleAt (closings (before ++ '(' :: inner ++ [')'])) cursor (byteLength before)
      '(' = .pairOpening := by
    have hstyle := isStyle_styleAt cursor before '(' (inner ++ [')'])
    rw [← List.cons_append, ← List.append_assoc] at hstyle
    exact hstyle.eq_of_callsFor (s := .pairOpening) ⟨_, hpair, hcursor⟩
  have hclosing : styleAt (closings (before ++ '(' :: inner ++ [')'])) cursor
      (byteLength (before ++ '(' :: inner)) ')' = .pairClosing :=
    (isStyle_styleAt cursor (before ++ '(' :: inner) ')' []).eq_of_callsFor
      (s := .pairClosing) ⟨_, hpair, hcursor⟩
  refine ⟨paintAll (styledFrom (closings (before ++ '(' :: inner)) cursor
    (byteLength before + '('.utf8Size) inner), ?_, ?_⟩
  · rw [painted_cons (styleAt_opening hinner)]
    rfl
  · rw [painted_cons hclosing, painted_cons hopening, styledFrom_inside_closing hinner,
      painted_before_closing hinner (List.prefix_refl _)]
    simp [styledFrom, paintAll]

end Closing

/-- **The patch at the pair at the cursor** hits the parenthesis that opens the pair, and what is
still open stands in front of it. -/
theorem Tracks.patch {p : Patching} {spot o : Nat} {opened : List (Nat × Nat)}
    (h : Tracks cursor line p) (hopened : p.opened = (spot, o) :: opened)
    (hcursor : AtCursor cursor o (byteLength line)) :
    replaceByte? (Style.pairOpening.paint '(').toList spot (p.write .pairClosing ')').out =
        some (painted (line ++ [')']) cursor (line ++ [')'])) ∧
      OpenAt (place (line ++ [')']) cursor) (line ++ [')']) opened := by
  have hopen := h.opened
  rw [hopened] at hopen
  obtain ⟨before, inner, rfl, hinner, hplace, hbefore⟩ := hopen.exists_cons
  obtain ⟨rfl, rfl⟩ := Prod.mk.inj hplace
  constructor
  · obtain ⟨inside, hold, hnew⟩ := painted_closing hinner hcursor
    rw [Patching.write, h.out, hold, hnew, List.append_assoc, List.cons_append]
    exact replaceByte?_append rfl _
  · have hsame : OpenAt (place (before ++ '(' :: inner ++ [')']) cursor) before opened := by
      refine hbefore.congr fun part hpart => ?_
      rw [place, place, painted_before_closing hinner hpart]
    have hlist := hsame.append_balanced hinner.parenthesize
    rwa [← List.cons_append, ← List.append_assoc] at hlist

section Step

variable {p : Patching}

/-- **One more closing parenthesis**: it closes nothing, or the pair at the cursor, or another. -/
theorem Tracks.step_closing (h : Tracks cursor line p) :
    ∃ p', p.step cursor (byteLength line) ')' = some p' ∧ Tracks cursor (line ++ [')']) p' := by
  have hclosed : ∀ {o}, IsPair (line ++ [')']) o (byteLength line) ↔
      (p.opened.map Prod.snd).head? = some o := by
    rw [h.offsets]
    exact isPair_last_iff.trans (and_iff_right rfl)
  have hstack : openParens [] 0 (line ++ [')']) = (p.opened.map Prod.snd).tail := by
    rw [h.offsets]
    exact openParens_concat line ')'
  unfold Patching.step
  rw [if_neg (by decide), if_neg (by decide), if_pos rfl]
  rcases hopened : p.opened with _ | ⟨⟨spot, o⟩, opened⟩
  · rw [hopened] at hclosed hstack
    have hno : ∀ o, ¬IsPair (line ++ [')']) o (byteLength line) :=
      fun o ho => nomatch hclosed.mp ho
    obtain ⟨-, hout, -⟩ := h.write (fun o ho => absurd ho (hno o))
      ((isStyle_styleAt cursor line ')' []).eq_of_callsFor (s := .stray)
        ⟨rfl, fun ⟨o, ho⟩ => hno o ho⟩)
    refine ⟨_, rfl, hout, ?_, ?_⟩
    · rw [Patching.write, hopened]
      exact .nil _
    · rw [Patching.write, hopened]
      exact hstack.symm
  · rw [hopened] at hclosed hstack
    dsimp only
    by_cases hcursor : AtCursor cursor o (byteLength line)
    · obtain ⟨hpatch, hrest⟩ := h.patch hopened hcursor
      rw [if_pos hcursor, hpatch]
      exact ⟨_, rfl, rfl, hrest, hstack.symm⟩
    · have hpair : IsPair (line ++ [')']) o (byteLength line) := hclosed.mpr rfl
      obtain ⟨-, hout, hopen⟩ := h.write (fun o' ho' => by rwa [ho'.eq_of_closing hpair])
        (styleAt_last (by decide) fun _ => ⟨o, hpair, hcursor⟩)
      rw [hopened] at hopen
      rw [if_neg hcursor]
      exact ⟨_, rfl, hout, hopen.closing, hstack.symm⟩

/-- **One more character**: if the output is to be patched it can be, and what is painted and
remembered is right again. -/
theorem Tracks.step (h : Tracks cursor line p) (c : Char) :
    ∃ p', p.step cursor (byteLength line) c = some p' ∧ Tracks cursor (line ++ [c]) p' := by
  by_cases hclosing : c = ')'
  · subst hclosing
    exact h.step_closing
  have hno : ∀ o, IsPair (line ++ [c]) o (byteLength line) → ¬AtCursor cursor o (byteLength line) :=
    fun o ho => absurd (isPair_last_iff.mp ho).1 hclosing
  have hstack := openParens_concat line c
  rw [← h.offsets] at hstack
  unfold Patching.step
  by_cases hquote : c = '"'
  · subst hquote
    obtain ⟨-, hout, hopened⟩ := h.write hno
      ((isStyle_styleAt cursor line '"' []).eq_of_callsFor (s := .quote) rfl)
    rw [if_pos rfl]
    exact ⟨_, rfl, hout, hopened.append_balanced (balanced_singleton (by decide) (by decide)),
      hstack.symm⟩
  obtain ⟨hplace, hout, hopened⟩ :=
    h.write hno (styleAt_last hquote fun hc => absurd hc hclosing)
  rw [if_neg hquote]
  by_cases hopening : c = '('
  · subst hopening
    rw [if_pos rfl]
    refine ⟨_, rfl, hout, ?_, hstack.symm⟩
    rw [hplace]
    exact hopened.opening
  · rw [if_neg hopening, if_neg hclosing] at hstack ⊢
    exact ⟨_, rfl, hout, hopened.append_balanced (balanced_singleton hopening hclosing),
      hstack.symm⟩

end Step

/-- **The whole line.** -/
theorem exists_tracks_run (cursor : Nat) (line : List Char) :
    ∃ p, run cursor 0 line ⟨[], []⟩ = some p ∧ Tracks cursor line p := by
  induction line using List.reverseRecOn with
  | nil => exact ⟨_, rfl, rfl, .nil _, rfl⟩
  | append_singleton line c ih =>
    obtain ⟨p, hrun, htracks⟩ := ih
    obtain ⟨p', hstep, htracks'⟩ := htracks.step c
    refine ⟨p', ?_, htracks'⟩
    rw [run_concat, hrun, Option.bind_some, Nat.zero_add, hstep]

end Patching

/-- **The patches hit their parentheses**: one pass over a line paints what two do. -/
theorem highlightInOnePass?_eq (line : String) (cursor : Nat) :
    highlightInOnePass? line cursor = some (highlight line cursor) := by
  obtain ⟨p, hrun, htracks⟩ := Patching.exists_tracks_run cursor line.toList
  rw [highlightInOnePass?, hrun, Option.map_some, htracks.out, Patching.painted, ← toList_paintFrom,
    String.ofList_toList]
  rfl

/-! ### The highlighter -/

/-- **What the highlighter paints**: the characters of the line, in order, each in its style. There
is one pair at the cursor at most, so no other is painted. A single pass that goes back to the
parenthesis that opens the pair paints the same, and always finds it. -/
theorem highlight_paints_brackets (line : String) (cursor : Nat) :
    (∃ styled : List (Style × Char),
      styled.map Prod.snd = line.toList ∧
      (highlight line cursor).toList = paintAll styled ∧
      ∀ before style c after, styled = before ++ (style, c) :: after →
        IsStyle line.toList cursor (byteLength (before.map Prod.snd)) c style) ∧
    (∀ o d o' d', IsPair line.toList o d → AtCursor cursor o d →
      IsPair line.toList o' d' → AtCursor cursor o' d' → o = o' ∧ d = d') ∧
    highlightInOnePass? line cursor = some (highlight line cursor) := by
  refine ⟨⟨styledFrom (closings line.toList) cursor 0 line.toList, map_snd_styledFrom _ _ _ _,
    toList_paintFrom _ _ _ _, fun before style c after hstyled => ?_⟩,
    fun o d o' d' h hcursor h' hcursor' => h.eq_of_atCursor hcursor h' hcursor',
    highlightInOnePass?_eq line cursor⟩
  have hline : line.toList = before.map Prod.snd ++ c :: after.map Prod.snd := by
    rw [← map_snd_styledFrom (closings line.toList) cursor 0 line.toList, hstyled, List.map_append,
      List.map_cons]
  have hstyle := styleAt_of_styledFrom hstyled
  rw [Nat.zero_add] at hstyle
  rw [hstyle, hline]
  exact isStyle_styleAt cursor _ c _

-- the cursor stands behind the last parenthesis: the first one is painted, behind a stray one
-- and in front of two characters that are longer in the output or in bytes
example : highlight ")(é\")" 6 =
    "\x1b[31m)\x1b[0m\x1b[1;34m(\x1b[0mé\x1b[32m\"\x1b[0m\x1b[34m)\x1b[0m" := by
  decide

end SmallLisp
