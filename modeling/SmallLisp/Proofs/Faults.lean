import Mathlib
import SmallLisp.Proofs.Waiting

/-!
# What is wrong with a text, and where

Walk over the tokens of a text with a counter for the lists that are open
(`SmallLisp.withDepth`). If a closing parenthesis comes when none is open, the first such
parenthesis is the error (`SmallLisp.strayClosing?`), whatever comes later; if none does and
some list is open at the end, the innermost one is; and otherwise there is an expression for
every token that opens a list or is an atom while no list is open
(`SmallLisp.topLevelCount`). The theorem `SmallLisp.depth_decides_reading` says that the
reader, which never counts, comes to the same.

A tree has exactly one token at the depth that it stands at, the first one, and all its
other tokens are deeper (`SmallLisp.ParseTree.withDepth_tokens`). So trees neither have a
closing parenthesis that matters nor count for more than one.
-/

namespace SmallLisp

open Token Kind

/-! ### The counter -/

/-- **Tokens with their depth**: each with the number of lists that are open in front of it,
if `depth` lists are to begin with. -/
def withDepth (depth : Int) : List Token → List (Int × Token)
  | [] => []
  | t :: ts => (depth, t) :: withDepth (depth + t.kind.step) ts

/-- The first closing parenthesis that comes when no list is open. -/
def strayClosing? (tokens : List Token) : Option Token :=
  ((withDepth 0 tokens).find? fun p => p.1 = 0 ∧ p.2.kind = .closing).map Prod.snd

/-- The number of atoms and of opening parentheses that come when no list is open. -/
def topLevelCount (tokens : List Token) : Nat :=
  (withDepth 0 tokens).countP fun p => p.1 = 0 ∧ p.2.kind ≠ .closing

theorem withDepth_append (d : Int) (ts us : List Token) :
    withDepth d (ts ++ us) = withDepth d ts ++ withDepth (d + depth (ts.map kind)) us := by
  induction ts generalizing d with
  | nil => simp [withDepth]
  | cons t ts ih =>
    rw [List.cons_append, withDepth, withDepth, ih, List.map_cons, depth_cons, List.cons_append,
      Int.add_assoc]

/-- The depth at the end is what is left open, less what was closed and not open. -/
theorem Token.Kind.depth_eq (ks : List Kind) : depth ks = unmatched ks - deficit ks := by
  induction ks with
  | nil => rfl
  | cons k ks ih =>
    rw [depth_cons, ih]
    cases k with
    | opening =>
      rw [unmatched_opening, deficit_opening, step]
      split <;> omega
    | closing =>
      rw [unmatched_closing, deficit_closing, step]
      omega
    | atom text =>
      rw [unmatched_atom, deficit_atom, step]
      omega

/-- **No closing parenthesis comes when no list is open**, exactly if as many lists as the
deficit are open to begin with. -/
theorem forall_withDepth_iff {tokens : List Token} {d : Int} (hd : 0 ≤ d) :
    (∀ p ∈ withDepth d tokens, ¬(p.1 = 0 ∧ p.2.kind = .closing)) ↔
      (deficit (tokens.map kind) : Int) ≤ d := by
  induction tokens generalizing d with
  | nil => simpa [withDepth] using hd
  | cons t ts ih =>
    obtain ⟨k, span⟩ := t
    rw [withDepth, List.forall_mem_cons, List.map_cons]
    cases k with
    | opening =>
      rw [ih (by simp only [step]; omega), deficit_opening, step]
      simp only [reduceCtorEq, and_false, not_false_iff, true_and]
      omega
    | closing =>
      rw [deficit_closing]
      -- if no list is open, this is the one
      by_cases hzero : d = 0
      · exact iff_of_false (fun h => h.1 ⟨hzero, rfl⟩) (by omega)
      · rw [ih (by simp only [step]; omega), step]
        simp only [hzero, false_and, not_false_iff, true_and]
        omega
    | atom text =>
      rw [ih (by simp only [step]; omega), deficit_atom, step]
      simp only [reduceCtorEq, and_false, not_false_iff, true_and]
      omega

theorem strayClosing?_eq_none_iff {tokens : List Token} :
    strayClosing? tokens = none ↔ deficit (tokens.map kind) = 0 := by
  have h := @forall_withDepth_iff tokens 0 (Int.le_refl 0)
  rw [strayClosing?, Option.map_eq_none_iff, List.find?_eq_none]
  simp only [decide_eq_true_eq, h]
  omega

/-- Behind tokens whose parentheses match one another, a closing parenthesis is the first
that closes nothing. -/
theorem strayClosing?_of_balanced {ts : List Token} (hd : deficit (ts.map kind) = 0)
    (hu : unmatched (ts.map kind) = 0) (span : Span) (rest : List Token) :
    strayClosing? (ts ++ ⟨.closing, span⟩ :: rest) = some ⟨.closing, span⟩ := by
  have hnone := strayClosing?_eq_none_iff.mpr hd
  rw [strayClosing?, Option.map_eq_none_iff] at hnone
  rw [strayClosing?, withDepth_append, List.find?_append, hnone, depth_eq, hd, hu]
  rfl

/-! ### Trees and their depth -/

namespace ParseTree

theorem depth_tokens (t : ParseTree) : depth (t.tokens.map kind) = 0 := by
  rw [depth_eq, t.balanced_tokens.1, t.balanced_tokens.2]
  rfl

theorem depth_tokensOfAll (ts : List ParseTree) : depth ((tokensOfAll ts).map kind) = 0 := by
  rw [depth_eq, deficit_tokensOfAll, unmatched_tokensOfAll]
  rfl

/-- If no token of a tree is at a lower depth than the tree, this is so for trees that
follow one another. -/
theorem le_depth_of_forall {ts : List ParseTree} {d : Int}
    (h : ∀ t ∈ ts, ∀ p ∈ withDepth d t.tokens, d ≤ p.1) :
    ∀ p ∈ withDepth d (tokensOfAll ts), d ≤ p.1 := by
  induction ts with
  | nil => simp [withDepth]
  | cons t ts ih =>
    obtain ⟨ht, hts⟩ := List.forall_mem_cons.mp h
    rw [tokensOfAll_cons, withDepth_append, depth_tokens, Int.add_zero]
    exact List.forall_mem_append.mpr ⟨ht, ih hts⟩

/-- **Of the tokens of a tree, only the first one is at the depth of the tree**, and it
closes nothing. The others are deeper. -/
theorem withDepth_tokens (t : ParseTree) (d : Int) :
    ∃ first rest, withDepth d t.tokens = (d, first) :: rest ∧ first.kind ≠ .closing ∧
      ∀ p ∈ rest, d < p.1 := by
  induction t using ParseTree.induction generalizing d with
  | atom text span => exact ⟨⟨.atom text, span⟩, [], rfl, nofun, nofun⟩
  | list opening ts closing ih =>
    refine ⟨⟨.opening, opening⟩, _, rfl, nofun, ?_⟩
    -- the children stand one deeper, and so does the closing parenthesis
    rw [withDepth_append, depth_tokensOfAll, step]
    refine List.forall_mem_append.mpr ⟨fun p hp => ?_, ?_⟩
    · refine Int.lt_of_add_one_le (le_depth_of_forall (fun t ht q hq => ?_) p hp)
      obtain ⟨first, rest, heq, -, hrest⟩ := ih t ht (d + 1)
      rw [heq] at hq
      rcases List.mem_cons.mp hq with rfl | hq
      · exact Int.le_refl _
      · exact Int.le_of_lt (hrest q hq)
    · simp only [withDepth, List.forall_mem_cons, List.not_mem_nil, false_imp_iff, implies_true,
        and_true]
      omega

/-- **There is one token for every tree when no list is open.** -/
theorem topLevelCount_tokensOfAll (ts : List ParseTree) :
    topLevelCount (tokensOfAll ts) = ts.length := by
  induction ts with
  | nil => rfl
  | cons t ts ih =>
    obtain ⟨first, rest, heq, hfirst, hrest⟩ := t.withDepth_tokens 0
    have hzero : rest.countP (fun p => p.1 = 0 ∧ p.2.kind ≠ .closing) = 0 := by
      refine List.countP_eq_zero.mpr fun p hp => ?_
      have := hrest p hp
      simp only [decide_eq_true_eq]
      omega
    rw [topLevelCount, tokensOfAll_cons, withDepth_append, depth_tokens, Int.add_zero,
      List.countP_append, heq, List.countP_cons_of_pos (by simpa using hfirst), hzero, Nat.zero_add,
      List.length_cons, Nat.add_comm, ← ih, topLevelCount]

end ParseTree

/-! ### The reader -/

/-- Tokens in front do not change which parenthesis is the last one never matched. -/
theorem LastUnmatched.append_left {tokens : List Token} {opening : Span}
    (h : LastUnmatched tokens opening) (more : List Token) :
    LastUnmatched (more ++ tokens) opening := by
  obtain ⟨before, after, rfl, hlast⟩ := h
  exact ⟨more ++ before, after, (List.append_assoc more before _).symm, hlast⟩

/-- **A list that is not closed is the innermost one**: its parenthesis is the last that is
never matched. -/
theorem lastUnmatched_of_readAll {tokens : List Token} {span : Span}
    (h : readAll tokens = .error (.unclosed span)) : LastUnmatched tokens span := by
  fun_induction readAll tokens with
  | case1 => cases h
  | case2 tokens hne _ e he =>
    obtain rfl := Except.error.inj h
    rcases readExpr_cases hne with ⟨t, rest, -, hread⟩ | ⟨span', rest, -, hread⟩ |
      ⟨-, span', hlast, hread⟩
    · rw [hread] at he
      cases he
    · rw [hread] at he
      cases he
    · rw [hread] at he
      cases he
      exact hlast
  -- what is read first is a tree, and the error is behind it
  | case3 tokens hne _ d hd ih =>
    have hread : readExpr tokens = (.ok d, (readExpr tokens).2) := Prod.ext hd rfl
    obtain ⟨t, htokens, -⟩ := readExpr_eq_ok_iff.mp hread
    rcases hrest : readAll (readExpr tokens).2 with e | ds
    · rw [hrest] at h
      obtain rfl := Except.error.inj h
      rw [htokens]
      exact (ih hrest).append_left t.tokens
    · rw [hrest] at h
      cases h

/-- **The depth decides how tokens are read**: the first closing parenthesis that comes when
no list is open is an error, else the last list that is open at the end, and else there are
as many expressions as tokens at the top level. -/
theorem readAll_by_depth (tokens : List Token) :
    (∃ span, strayClosing? tokens = some ⟨.closing, span⟩ ∧
      readAll tokens = .error (.stray span)) ∨
    (strayClosing? tokens = none ∧ 0 < depth (tokens.map kind) ∧
      ∃ span, LastUnmatched tokens span ∧ readAll tokens = .error (.unclosed span)) ∨
    (strayClosing? tokens = none ∧ depth (tokens.map kind) = 0 ∧
      ∃ ds, readAll tokens = .ok ds ∧ ds.length = topLevelCount tokens) := by
  rcases readAll_cases tokens with ⟨trees, rfl, hread⟩ | ⟨hdeficit, hpos, span, hread⟩ |
    ⟨trees, span, rest, rfl, hread⟩
  · refine .inr (.inr ⟨?_, ParseTree.depth_tokensOfAll trees, _, hread, ?_⟩)
    · exact strayClosing?_eq_none_iff.mpr (ParseTree.deficit_tokensOfAll trees)
    · rw [List.length_map, ParseTree.topLevelCount_tokensOfAll]
  · refine .inr (.inl ⟨strayClosing?_eq_none_iff.mpr hdeficit, ?_, span, ?_, hread⟩)
    · rw [depth_eq, hdeficit]
      omega
    · exact lastUnmatched_of_readAll hread
  · refine .inl ⟨span, ?_, hread⟩
    exact strayClosing?_of_balanced (ParseTree.deficit_tokensOfAll trees)
      (ParseTree.unmatched_tokensOfAll trees) span rest

/-- An error is at a token. -/
theorem exists_token_of_readAll_error {tokens : List Token} {e : ReadError}
    (h : readAll tokens = .error e) : ∃ t ∈ tokens, e.span = t.span := by
  rcases readAll_cases tokens with ⟨trees, -, hread⟩ | ⟨-, -, span, hread⟩ |
    ⟨trees, span, rest, rfl, hread⟩
  · cases hread.symm.trans h
  · obtain ⟨before, after, rfl, -⟩ := lastUnmatched_of_readAll hread
    cases hread.symm.trans h
    exact ⟨⟨.opening, span⟩, by simp, rfl⟩
  · cases hread.symm.trans h
    exact ⟨⟨.closing, span⟩, by simp, rfl⟩

/-! ### Texts -/

/-- A text that is read has an expression. -/
theorem ne_nil_of_readProgram {text : String} {ds : List Datum} (h : readProgram text = .ok ds) :
    ds ≠ [] := by
  obtain ⟨hblank, hread⟩ := readProgram_eq_ok_iff.mp h
  obtain ⟨trees, htokens, rfl⟩ := exists_trees_of_readAll hread
  intro hnil
  rw [List.map_eq_nil_iff.mp hnil] at htokens
  exact hblank (scan_eq_nil_iff.mp htokens)

theorem readFirst_of_cons {text : String} {d : Datum} {ds : List Datum}
    (h : readProgram text = .ok (d :: ds)) : readFirst text = .ok d := by
  rw [readFirst, h]

/-- **Reading the first expression fails as reading all of them does.** -/
theorem readFirst_eq_error_iff {text : String} {e : ReadError} :
    readFirst text = .error e ↔ readProgram text = .error e := by
  rcases hread : readProgram text with e' | ds
  · rw [readFirst, hread]
    exact ⟨fun h => congrArg _ (Except.error.inj h), fun h => congrArg _ (Except.error.inj h)⟩
  · obtain ⟨d, ds, rfl⟩ := List.exists_cons_of_ne_nil (ne_nil_of_readProgram hread)
    rw [readFirst_of_cons hread]
    exact iff_of_false nofun nofun

/-- **Which error a text has, and where.** Let a text have a character that is not blank, and
walk over its tokens with a counter for the lists that are open. The reader reports a
closing parenthesis exactly if one comes when no list is open, and it is the first such
one. It reports a list that is not closed exactly if none does and the counter ends above
zero, and it is the last opening parenthesis that is never matched. Otherwise it gives at
least one expression, as many as atoms and opening parentheses come when no list is open.
The span of an error is never empty. Reading the first expression fails with the same
errors, and gives the first of these expressions. -/
theorem depth_decides_reading {text : String} (h : ¬∀ c ∈ text.toList, isBlank c = true) :
    ∃ tokens, tokenize text = .ok tokens ∧
      (∀ span, readProgram text = .error (.stray span) ↔
        ∃ t, strayClosing? tokens = some t ∧ t.span = span) ∧
      ((∃ span, readProgram text = .error (.unclosed span)) ↔
        strayClosing? tokens = none ∧ 0 < depth (tokens.map kind)) ∧
      (∀ span, readProgram text = .error (.unclosed span) → LastUnmatched tokens span) ∧
      (strayClosing? tokens = none → ¬0 < depth (tokens.map kind) →
        ∃ ds, readProgram text = .ok ds ∧ ds ≠ [] ∧ ds.length = topLevelCount tokens) ∧
      (∀ e, readProgram text = .error e → e.span.start < e.span.stop) ∧
      (∀ e, readFirst text = .error e ↔ readProgram text = .error e) ∧
      ∀ d ds, readProgram text = .ok (d :: ds) → readFirst text = .ok d := by
  have hprogram := readProgram_of_not_blank h
  refine ⟨scan 0 text.toList, tokenize_of_not_blank h, ?_, ?_, ?_, ?_, ?_,
    fun e => readFirst_eq_error_iff, fun d ds => readFirst_of_cons⟩
  · intro span
    rw [hprogram]
    rcases readAll_by_depth (scan 0 text.toList) with ⟨span', hstray, hread⟩ |
      ⟨hstray, -, span', -, hread⟩ | ⟨hstray, -, ds, hread, -⟩ <;> simp [hstray, hread]
  · rw [hprogram]
    rcases readAll_by_depth (scan 0 text.toList) with ⟨span, hstray, hread⟩ |
      ⟨hstray, hdepth, span, -, hread⟩ | ⟨hstray, hdepth, ds, hread, -⟩
    · simp [hstray, hread]
    · simp [hstray, hread, hdepth]
    · simp [hread, hdepth]
  · intro span hread
    exact lastUnmatched_of_readAll (hprogram.symm.trans hread)
  · intro hnone hpos
    rcases readAll_by_depth (scan 0 text.toList) with ⟨span, hstray, -⟩ | ⟨-, hdepth, -⟩ |
      ⟨-, -, ds, hread, hlength⟩
    · cases hnone.symm.trans hstray
    · exact absurd hdepth hpos
    · have hds := hprogram.trans hread
      exact ⟨ds, hds, ne_nil_of_readProgram hds, hlength⟩
  · intro e he
    obtain ⟨t, ht, hspan⟩ := exists_token_of_readAll_error (hprogram.symm.trans he)
    rw [hspan]
    exact (cuts_of_mem_scan ht).1

/-- In `é (f) ) ( x (`, the third parenthesis closes nothing; it is the error, though two lists
are never closed behind it. -/
theorem closing_before_open_lists :
    let text := "é (f) ) ( x ("
    readProgram text = .error (.stray ⟨7, 8⟩) ∧ readFirst text = .error (.stray ⟨7, 8⟩) := by
  intro text
  have hblank : ¬∀ c ∈ text.toList, isBlank c = true := by
    intro hall
    exact absurd (hall '(' (by simp [text])) (by simp)
  have hscan : scan 0 "é (f) ) ( x (".toList = [⟨.atom "é", ⟨0, 2⟩⟩, ⟨.opening, ⟨3, 4⟩⟩,
      ⟨.atom "f", ⟨4, 5⟩⟩, ⟨.closing, ⟨5, 6⟩⟩, ⟨.closing, ⟨7, 8⟩⟩, ⟨.opening, ⟨9, 10⟩⟩,
      ⟨.atom "x", ⟨11, 12⟩⟩, ⟨.opening, ⟨13, 14⟩⟩] := by
    cbv
  have htokens := (tokenize_of_not_blank hblank).trans (congrArg Except.ok hscan)
  obtain ⟨tokens, hok, hstray, -, -, -, -, hfirst, -⟩ := depth_decides_reading hblank
  obtain rfl := Except.ok.inj (htokens.symm.trans hok)
  have hread : readProgram text = .error (.stray ⟨7, 8⟩) :=
    (hstray ⟨7, 8⟩).mpr ⟨⟨.closing, ⟨7, 8⟩⟩, by decide, rfl⟩
  exact ⟨hread, (hfirst _).mpr hread⟩

end SmallLisp
