import SmallLisp.Proofs.Grammar.Reader
import SmallLisp.Proofs.Tokens.Layout
import SmallLisp.Shell.Balance

/-!
# Waiting for more input

Whether an input is complete is decided by a counter that runs over its characters and
knows nothing of tokens and trees, while the reader takes the same input apart for good.
The two agree: the input waits for more exactly if the reader finds a list that is not
closed (`SmallLisp.waiting_agrees_with_reader`).

Both are functions of the two numbers that sum up the parentheses of a text
(`SmallLisp.Token.Kind.deficit`, `SmallLisp.Token.Kind.unmatched`): the counter by
`SmallLisp.openDepth?_eq`, the reader by `SmallLisp.readProgram_cases`. Closing parentheses
added at the end take the second number down one by one, and so the first run of them
that makes the reader succeed has as many as there are unmatched opening ones. A closing
parenthesis that matches nothing is there for good, whatever is added.
-/

namespace SmallLisp

open Token Kind

/-! ### The counter -/

/-- **The counter follows the parentheses of a text**: it stops at a closing one that
matches nothing, and ends with those that were open before and not closed, and those that
are never matched. -/
theorem openDepth?_eq (depth : Nat) (cs : List Char) :
    openDepth? depth cs =
      if deficit (kindsOfChars cs) ≤ depth then
        some (depth - deficit (kindsOfChars cs) + unmatched (kindsOfChars cs))
      else none := by
  fun_induction openDepth? depth cs with
  | case1 depth => simp
  | case2 depth cs ih =>
    rw [ih, kindsOfChars_cons, ofLexeme, deficit_opening, unmatched_opening]
    simp only [Nat.sub_le_iff_le_add]
    split
    · congr 1
      split <;> omega
    · rfl
  | case3 cs => simp [ofLexeme]
  | case4 cs depth ih =>
    rw [ih, kindsOfChars_cons, ofLexeme, deficit_closing, unmatched_closing]
    simp
  | case5 depth c cs hopening hclosing ih =>
    rw [ih, kindsOfChars_cons, ofLexeme_singleton hopening hclosing, deficit_atom,
      unmatched_atom]

theorem waitsForMore_iff (cs : List Char) :
    waitsForMore cs = true ↔
      deficit (kindsOfChars cs) = 0 ∧ 0 < unmatched (kindsOfChars cs) := by
  rw [waitsForMore, openDepth?_eq]
  by_cases h : deficit (kindsOfChars cs) = 0 <;> simp [h]

/-! ### The reader -/

/-- Blanks are no parentheses. -/
theorem unmatched_of_blank {cs : List Char} (h : ∀ c ∈ cs, isBlank c = true) :
    unmatched (kindsOfChars cs) = 0 := by
  rw [← unmatched_scan 0, scan_eq_nil_iff.mpr h]
  rfl

theorem blank_of_append {text more : String}
    (h : ∀ c ∈ (text ++ more).toList, isBlank c = true) : ∀ c ∈ text.toList, isBlank c = true := by
  intro c hc
  refine h c ?_
  rw [String.toList_append]
  exact List.mem_append_left _ hc

/-- **The reader follows the parentheses of a text**: they decide between the outcomes that
reading a text can have, if it is not blank. -/
theorem readProgram_cases (text : String) :
    ((∀ c ∈ text.toList, isBlank c = true) ∧
      readProgram text = .error (.empty ⟨0, text.utf8ByteSize⟩)) ∨
    (¬∀ c ∈ text.toList, isBlank c = true) ∧
      (deficit (kindsOfChars text.toList) = 0 ∧ unmatched (kindsOfChars text.toList) = 0 ∧
        (∃ ds, readProgram text = .ok ds) ∨
      deficit (kindsOfChars text.toList) = 0 ∧ 0 < unmatched (kindsOfChars text.toList) ∧
        (∃ span, readProgram text = .error (.unclosed span)) ∨
      0 < deficit (kindsOfChars text.toList) ∧
        ∃ span, readProgram text = .error (.stray span)) := by
  by_cases hblank : ∀ c ∈ text.toList, isBlank c = true
  · exact .inl ⟨hblank, readProgram_of_blank hblank⟩
  refine .inr ⟨hblank, ?_⟩
  rw [readProgram_of_not_blank hblank, ← deficit_scan 0, ← unmatched_scan 0]
  rcases readAll_cases (scan 0 text.toList) with ⟨trees, htokens, hread⟩ |
    ⟨hdeficit, hpos, span, hread⟩ | ⟨trees, span, rest, htokens, hread⟩
  · rw [hread, htokens, ParseTree.deficit_tokensOfAll, ParseTree.unmatched_tokensOfAll]
    exact .inl ⟨rfl, rfl, _, rfl⟩
  · exact .inr (.inl ⟨hdeficit, hpos, span, hread⟩)
  · rw [hread, htokens, List.map_append, deficit_append_of_balanced
      (ParseTree.deficit_tokensOfAll trees) (ParseTree.unmatched_tokensOfAll trees)]
    exact .inr (.inr ⟨Nat.succ_pos _, span, rfl⟩)

/-- A text is read exactly if all its parentheses match and it is not blank. -/
theorem readProgram_ok_iff (text : String) :
    (∃ ds, readProgram text = .ok ds) ↔ (¬∀ c ∈ text.toList, isBlank c = true) ∧
      deficit (kindsOfChars text.toList) = 0 ∧ unmatched (kindsOfChars text.toList) = 0 := by
  rcases readProgram_cases text with ⟨hblank, hread⟩ | ⟨hblank, ⟨hdeficit, hunmatched, ds, hread⟩ |
    ⟨hdeficit, hunmatched, span, hread⟩ | ⟨hdeficit, span, hread⟩⟩
  · exact iff_of_false (by simp [hread]) fun h => h.1 hblank
  · exact iff_of_true ⟨ds, hread⟩ ⟨hblank, hdeficit, hunmatched⟩
  · exact iff_of_false (by simp [hread]) fun h => absurd h.2.2 (Nat.ne_of_gt hunmatched)
  · exact iff_of_false (by simp [hread]) fun h => absurd h.2.1 (Nat.ne_of_gt hdeficit)

/-- A list is left open exactly if some opening parenthesis is never matched, and every
closing one matches. -/
theorem readProgram_unclosed_iff (text : String) :
    (∃ span, readProgram text = .error (.unclosed span)) ↔
      deficit (kindsOfChars text.toList) = 0 ∧ 0 < unmatched (kindsOfChars text.toList) := by
  rcases readProgram_cases text with ⟨hblank, hread⟩ | ⟨-, ⟨hdeficit, hunmatched, ds, hread⟩ |
    ⟨hdeficit, hunmatched, span, hread⟩ | ⟨hdeficit, span, hread⟩⟩
  · refine iff_of_false (by simp [hread]) fun h => ?_
    exact absurd (unmatched_of_blank hblank) (Nat.ne_of_gt h.2)
  · exact iff_of_false (by simp [hread]) fun h => absurd hunmatched (Nat.ne_of_gt h.2)
  · exact iff_of_true ⟨span, hread⟩ ⟨hdeficit, hunmatched⟩
  · exact iff_of_false (by simp [hread]) fun h => absurd h.1 (Nat.ne_of_gt hdeficit)

/-- A closing parenthesis that matches nothing stays where it is, whatever is added. -/
theorem readProgram_stray_append {text : String} {span : Span}
    (h : readProgram text = .error (.stray span)) (more : String) :
    readProgram (text ++ more) = .error (.stray span) := by
  have hblank : ¬∀ c ∈ text.toList, isBlank c = true := by
    intro hblank
    rw [readProgram_of_blank hblank] at h
    cases h
  have hblank' : ¬∀ c ∈ (text ++ more).toList, isBlank c = true :=
    fun hall => hblank (blank_of_append hall)
  rw [readProgram_of_not_blank hblank] at h
  rw [readProgram_of_not_blank hblank', String.toList_append]
  rcases readAll_cases (scan 0 text.toList) with ⟨trees, -, hread⟩ | ⟨-, -, span', hread⟩ |
    ⟨trees, span', rest, htokens, hread⟩
  · cases hread.symm.trans h
  · cases hread.symm.trans h
  · cases hread.symm.trans h
    obtain ⟨rest', htokens'⟩ := scan_append_of_closing htokens more.toList
    rw [htokens', readAll_tokensOfAll_append,
      readAll_of_error (by simp) (readExpr_closing span rest')]
    rfl

/-! ### Closing what is open -/

/-- A run of closing parentheses. -/
def closingRun (n : Nat) : String := String.ofList (List.replicate n ')')

theorem deficit_closingRun (n : Nat) : deficit (kindsOfChars (List.replicate n ')')) = n := by
  induction n with
  | zero => rfl
  | succ n ih => rw [List.replicate_succ, kindsOfChars_cons, ofLexeme, deficit_closing, ih]

theorem unmatched_closingRun (n : Nat) : unmatched (kindsOfChars (List.replicate n ')')) = 0 := by
  induction n with
  | zero => rfl
  | succ n ih => rw [List.replicate_succ, kindsOfChars_cons, ofLexeme, unmatched_closing, ih]

/-- A run of closing parentheses, no longer than there are unmatched opening ones, closes
the text exactly if it is as long as that. -/
theorem readProgram_closingRun_iff {text : String} (h : waitsForMore text.toList = true) {n : Nat}
    (hn : n ≤ unmatched (kindsOfChars text.toList)) :
    (∃ ds, readProgram (text ++ closingRun n) = .ok ds) ↔
      n = unmatched (kindsOfChars text.toList) := by
  obtain ⟨hdeficit, hpos⟩ := (waitsForMore_iff _).mp h
  have hblank : ¬∀ c ∈ (text ++ closingRun n).toList, isBlank c = true := by
    intro hall
    have hzero := unmatched_of_blank (blank_of_append hall)
    omega
  rw [readProgram_ok_iff, String.toList_append, closingRun, String.toList_ofList,
    kindsOfChars_append, deficit_append, unmatched_append, hdeficit, deficit_closingRun,
    unmatched_closingRun]
  rw [String.toList_append, closingRun, String.toList_ofList] at hblank
  simp only [hblank, not_false_iff, true_and]
  omega

/-- **Waiting agrees with reading.** An input waits for more exactly if the reader finds a
list in it that is not closed. Then as many closing parentheses as there are unmatched
opening ones make the reader succeed, and fewer do not. If a closing parenthesis matches
nothing, then it is the error of every longer input too, and none of these waits. -/
theorem waiting_agrees_with_reader (text : String) :
    (waitsForMore text.toList = true ↔ ∃ span, readProgram text = .error (.unclosed span)) ∧
    (waitsForMore text.toList = true →
      (∃ ds, readProgram (text ++ closingRun (unmatched (kindsOfChars text.toList))) = .ok ds) ∧
      ∀ n < unmatched (kindsOfChars text.toList),
        ¬∃ ds, readProgram (text ++ closingRun n) = .ok ds) ∧
    (∀ span, readProgram text = .error (.stray span) → ∀ more : String,
      readProgram (text ++ more) = .error (.stray span) ∧
      waitsForMore (text ++ more).toList = false) := by
  refine ⟨(waitsForMore_iff _).trans (readProgram_unclosed_iff text).symm, fun h => ⟨?_, ?_⟩, ?_⟩
  · exact (readProgram_closingRun_iff h (Nat.le_refl _)).mpr rfl
  · intro n hn hread
    exact Nat.ne_of_lt hn ((readProgram_closingRun_iff h (Nat.le_of_lt hn)).mp hread)
  · intro span hstray more
    have hmore := readProgram_stray_append hstray more
    refine ⟨hmore, ?_⟩
    rw [← Bool.not_eq_true, waitsForMore_iff, ← readProgram_unclosed_iff, hmore]
    rintro ⟨span', h⟩
    cases h

/-- Three lists are open in `(let* (x "(`, for a quote does not hide a parenthesis, and two
closing parentheses are not enough. -/
theorem three_closings_complete :
    waitsForMore "(let* (x \"(".toList = true ∧
      (∃ ds, readProgram ("(let* (x \"(" ++ closingRun 3) = .ok ds) ∧
      ¬∃ ds, readProgram ("(let* (x \"(" ++ closingRun 2) = .ok ds := by
  have hwaits : waitsForMore "(let* (x \"(".toList = true := by decide
  have hcount : unmatched (kindsOfChars "(let* (x \"(".toList) = 3 := by decide
  obtain ⟨hall, hfewer⟩ := (waiting_agrees_with_reader "(let* (x \"(").2.1 hwaits
  rw [hcount] at hall
  exact ⟨hwaits, hall, hfewer 2 (by omega)⟩

end SmallLisp
