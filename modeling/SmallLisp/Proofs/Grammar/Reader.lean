import SmallLisp.Proofs.Grammar.Tree

/-!
# The reader follows the grammar

The reader keeps a stack of open lists, and the tokens of a tree come and go on that
stack without a trace but one: the datum of the tree is added to the innermost open list
(`SmallLisp.readFrom_tokens`). So what the reader does with any tokens at all can be read
off their split into trees and unmatched parentheses (`SmallLisp.exists_split`), which
gives the three outcomes of `SmallLisp.readExpr_cases`:

* a tree is read, and the tokens after it are left;
* the first token is a closing parenthesis, and it alone is used up;
* the first token is an opening parenthesis that is never matched, and everything is used
  up; the error is at the *last* parenthesis of that kind, the innermost list.

The theorem `SmallLisp.readExpr_follows_grammar` puts these together with unambiguity.
The rest of the file is about reading expressions up to the end of the tokens.
-/

namespace SmallLisp

open ParseTree

/-! ### Steps of the reader -/

theorem readFrom_opening (pending : List OpenList) (span : Span) (tokens : List Token) :
    readFrom pending (⟨.opening, span⟩ :: tokens) = readFrom (⟨span, []⟩ :: pending) tokens := by
  rw [readFrom]

theorem readFrom_closing_inner (o p : OpenList) (pending : List OpenList) (span : Span)
    (tokens : List Token) :
    readFrom (o :: p :: pending) (⟨.closing, span⟩ :: tokens) =
      readFrom (p.push (o.close span) :: pending) tokens := by
  rw [readFrom]

/-- An open list with further elements, in order. -/
def OpenList.extend (o : OpenList) (ds : List Datum) : OpenList :=
  { o with elements := ds.reverse ++ o.elements }

theorem OpenList.extend_cons (o : OpenList) (d : Datum) (ds : List Datum) :
    o.extend (d :: ds) = (o.push d).extend ds := by
  simp [extend, push]

/-- Closing a list gives the elements in the order in which they were added. -/
theorem OpenList.close_extend (opening closing : Span) (ds : List Datum) :
    (OpenList.extend ⟨opening, []⟩ ds).close closing = .list ds (opening.merge closing) := by
  simp [extend, close]

/-! ### Trees on the stack -/

/-- If each of some trees is added to the innermost open list, all of them are, one after
the other. -/
theorem readFrom_tokensOfAll_of_forall {ts : List ParseTree}
    (h : ∀ t ∈ ts, ∀ (o : OpenList) (pending : List OpenList) (rest : List Token),
      readFrom (o :: pending) (t.tokens ++ rest) = readFrom (o.push t.datum :: pending) rest)
    (o : OpenList) (pending : List OpenList) (rest : List Token) :
    readFrom (o :: pending) (tokensOfAll ts ++ rest) =
      readFrom (o.extend (ts.map datum) :: pending) rest := by
  induction ts generalizing o with
  | nil => rfl
  | cons t ts ih =>
    obtain ⟨ht, hts⟩ := List.forall_mem_cons.mp h
    rw [tokensOfAll_cons, List.append_assoc, ht, ih hts, List.map_cons, OpenList.extend_cons]

/-- **A tree is added to the innermost open list**, whatever follows it. -/
theorem readFrom_tokens (t : ParseTree) (o : OpenList) (pending : List OpenList)
    (rest : List Token) :
    readFrom (o :: pending) (t.tokens ++ rest) = readFrom (o.push t.datum :: pending) rest := by
  induction t using ParseTree.induction generalizing o pending rest with
  | atom text span => rw [tokens_atom, List.cons_append, List.nil_append, readFrom, datum_atom]
  | list opening ts closing ih =>
    rw [tokens_list, List.cons_append, List.append_assoc, readFrom_opening,
      readFrom_tokensOfAll_of_forall ih, List.cons_append, List.nil_append,
      readFrom_closing_inner, OpenList.close_extend, datum_list, data_eq]

theorem readFrom_tokensOfAll (ts : List ParseTree) (o : OpenList) (pending : List OpenList)
    (rest : List Token) :
    readFrom (o :: pending) (tokensOfAll ts ++ rest) =
      readFrom (o.extend (ts.map datum) :: pending) rest :=
  readFrom_tokensOfAll_of_forall (fun t _ => readFrom_tokens t) o pending rest

/-- **A tree is read**, and what follows it is left. -/
theorem readExpr_tokens (t : ParseTree) (rest : List Token) :
    readExpr (t.tokens ++ rest) = (.ok t.datum, rest) := by
  cases t with
  | atom text span => rw [tokens_atom, List.cons_append, List.nil_append, readExpr, readFrom,
      datum_atom]
  | list opening ts closing =>
    rw [tokens_list, List.cons_append, List.append_assoc, readExpr, readFrom_opening,
      readFrom_tokensOfAll, List.cons_append, List.nil_append, readFrom, OpenList.close_extend,
      datum_list, data_eq]

theorem readExpr_closing (span : Span) (rest : List Token) :
    readExpr (⟨.closing, span⟩ :: rest) = (.error (.stray span), rest) := by
  rw [readExpr, readFrom]

/-- Parentheses that are never matched use up everything, and the last of them is the one
that the error is about. -/
theorem readFrom_openTrees (opens : List OpenTree) (last : OpenTree) (pending : List OpenList) :
    readFrom pending ((opens ++ [last]).flatMap OpenTree.tokens) =
      (.error (.unclosed last.opening), []) := by
  induction opens generalizing pending with
  | nil =>
    have hend := readFrom_tokensOfAll last.children ⟨last.opening, []⟩ pending []
    rw [List.append_nil] at hend
    rw [List.nil_append, List.flatMap_cons, List.flatMap_nil, List.append_nil, OpenTree.tokens,
      readFrom_opening, hend, readFrom]
    rfl
  | cons o opens ih =>
    rw [List.cons_append, List.flatMap_cons, OpenTree.tokens, List.cons_append, readFrom_opening,
      readFrom_tokensOfAll, ih]

/-! ### One expression -/

/-- The tokens begin with an opening parenthesis that is never matched. -/
def StartsUnmatched (tokens : List Token) : Prop :=
  ∃ (opening : Span) (rest : List Token), tokens = ⟨.opening, opening⟩ :: rest ∧
    Token.Kind.NeverMatched (rest.map Token.kind)

/-- The span of the last opening parenthesis that is never matched: no other one behind it
is. -/
def LastUnmatched (tokens : List Token) (opening : Span) : Prop :=
  ∃ before after : List Token, tokens = before ++ ⟨.opening, opening⟩ :: after ∧
    Token.Kind.NeverMatched (after.map Token.kind) ∧
      Token.Kind.unmatched (after.map Token.kind) = 0

/-- The parenthesis that a tree begins with is matched in the tree. -/
theorem not_startsUnmatched_tokens (t : ParseTree) (rest : List Token) :
    ¬StartsUnmatched (t.tokens ++ rest) := by
  rintro ⟨opening, after, heq, hnever⟩
  cases t with
  | atom text span => simp at heq
  | list opening' ts closing =>
    simp only [tokens_list, List.cons_append, List.append_assoc, List.nil_append,
      List.cons.injEq] at heq
    obtain ⟨-, rfl⟩ := heq
    rw [Token.Kind.neverMatched_iff, List.map_append, Token.Kind.deficit_append_of_balanced
      (deficit_tokensOfAll ts) (unmatched_tokensOfAll ts)] at hnever
    simp at hnever

/-- Of opening parentheses that are never matched, the first one and the last one. -/
theorem startsUnmatched_openTrees (o : OpenTree) (opens : List OpenTree) :
    StartsUnmatched ((o :: opens).flatMap OpenTree.tokens) := by
  refine ⟨o.opening, tokensOfAll o.children ++ opens.flatMap OpenTree.tokens, rfl, ?_⟩
  rw [Token.Kind.neverMatched_iff, List.map_append, Token.Kind.deficit_append_of_balanced
    (deficit_tokensOfAll _) (unmatched_tokensOfAll _)]
  exact (unmatched_openTrees opens).1

theorem lastUnmatched_openTrees (opens : List OpenTree) (last : OpenTree) :
    LastUnmatched ((opens ++ [last]).flatMap OpenTree.tokens) last.opening := by
  refine ⟨opens.flatMap OpenTree.tokens, tokensOfAll last.children, ?_, ?_,
    unmatched_tokensOfAll _⟩
  · simp [OpenTree.tokens]
  · exact Token.Kind.neverMatched_iff.mpr (deficit_tokensOfAll _)

/-- **The three outcomes of reading an expression.** -/
theorem readExpr_cases {tokens : List Token} (h : tokens ≠ []) :
    (∃ (t : ParseTree) (rest : List Token), tokens = t.tokens ++ rest ∧
      readExpr tokens = (.ok t.datum, rest)) ∨
    (∃ (span : Span) (rest : List Token), tokens = ⟨.closing, span⟩ :: rest ∧
      readExpr tokens = (.error (.stray span), rest)) ∨
    (StartsUnmatched tokens ∧ ∃ span : Span, LastUnmatched tokens span ∧
      readExpr tokens = (.error (.unclosed span), [])) := by
  obtain ⟨trees, hsplit⟩ := exists_split tokens
  cases trees with
  -- a first tree is what is read, whatever comes after it
  | cons t trees =>
    have htree : ∃ rest, tokens = t.tokens ++ rest := by
      rcases hsplit with ⟨opens, rfl⟩ | ⟨closing, rest, rfl⟩
      · exact ⟨_, by rw [tokensOfAll_cons, List.append_assoc]⟩
      · exact ⟨_, by rw [tokensOfAll_cons, List.append_assoc]⟩
    obtain ⟨rest, rfl⟩ := htree
    exact .inl ⟨t, rest, rfl, readExpr_tokens t rest⟩
  | nil =>
    rcases hsplit with ⟨opens, rfl⟩ | ⟨closing, rest, rfl⟩
    · cases opens with
      | nil => exact absurd rfl h
      | cons o opens =>
        obtain ⟨init, last, hlast⟩ := (o :: opens).eq_nil_or_concat'.resolve_left (by simp)
        refine .inr (.inr ⟨startsUnmatched_openTrees o opens, last.opening, ?_⟩)
        rw [tokensOfAll_nil, List.nil_append, hlast]
        exact ⟨lastUnmatched_openTrees init last, readFrom_openTrees init last []⟩
    · exact .inr (.inl ⟨closing, rest, rfl, readExpr_closing closing rest⟩)

/-- An expression is read exactly if the tokens begin with a tree. -/
theorem readExpr_eq_ok_iff {tokens rest : List Token} {d : Datum} :
    readExpr tokens = (.ok d, rest) ↔ ∃ t : ParseTree, tokens = t.tokens ++ rest ∧ d = t.datum := by
  constructor
  · intro hread
    rcases eq_or_ne tokens [] with rfl | h
    · cases hread
    · rcases readExpr_cases h with ⟨t, rest', heq, ht⟩ | ⟨span, rest', -, hs⟩ | ⟨-, span, -, hs⟩
      · obtain ⟨hd, rfl⟩ := Prod.mk.inj (ht.symm.trans hread)
        exact ⟨t, heq, (Except.ok.inj hd).symm⟩
      · cases hs.symm.trans hread
      · cases hs.symm.trans hread
  · rintro ⟨t, rfl, rfl⟩
    exact readExpr_tokens t rest

/-- A closing parenthesis closes nothing exactly if it comes first. -/
theorem readExpr_eq_stray_iff {tokens rest : List Token} {span : Span} :
    readExpr tokens = (.error (.stray span), rest) ↔ tokens = ⟨.closing, span⟩ :: rest := by
  constructor
  · intro hread
    rcases eq_or_ne tokens [] with rfl | h
    · cases hread
    · rcases readExpr_cases h with ⟨t, rest', -, ht⟩ | ⟨span', rest', heq, hs⟩ | ⟨-, span', -, hs⟩
      · cases ht.symm.trans hread
      · cases hs.symm.trans hread
        exact heq
      · cases hs.symm.trans hread
  · rintro rfl
    exact readExpr_closing span rest

/-- A list is left open exactly if the tokens begin with a parenthesis that is never
matched. -/
theorem readExpr_unclosed_iff {tokens : List Token} (h : tokens ≠ []) :
    (∃ span rest, readExpr tokens = (.error (.unclosed span), rest)) ↔ StartsUnmatched tokens := by
  rcases readExpr_cases h with ⟨t, rest, rfl, hread⟩ | ⟨span, rest, rfl, hread⟩ |
    ⟨hstart, span, -, hread⟩
  · simp [hread, not_startsUnmatched_tokens]
  · simp [hread, StartsUnmatched]
  · simp [hread, hstart]

/-- **The reader follows the grammar.** On any tokens but none at all it gives a datum or
one of two errors. It gives a datum exactly if the tokens begin with a tree, and they
begin with one tree at most: the datum is that of the tree, and the tokens after it are
left. A closing parenthesis closes nothing exactly if it comes first, and it alone is used
up. A list is left open exactly if the first token is an opening parenthesis that is never
matched; then all tokens are used up, and the error is at the last parenthesis that is
never matched. -/
theorem readExpr_follows_grammar (tokens : List Token) (h : tokens ≠ []) :
    ((∃ d, (readExpr tokens).1 = .ok d) ∨ (∃ span, (readExpr tokens).1 = .error (.stray span)) ∨
      ∃ span, (readExpr tokens).1 = .error (.unclosed span)) ∧
    (∀ d rest, readExpr tokens = (.ok d, rest) ↔
      ∃ t : ParseTree, tokens = t.tokens ++ rest ∧ d = t.datum) ∧
    (∀ (t u : ParseTree) (rest rest' : List Token),
      tokens = t.tokens ++ rest → tokens = u.tokens ++ rest' → t = u ∧ rest = rest') ∧
    (∀ span rest, readExpr tokens = (.error (.stray span), rest) ↔
      tokens = ⟨.closing, span⟩ :: rest) ∧
    ((∃ span rest, readExpr tokens = (.error (.unclosed span), rest)) ↔ StartsUnmatched tokens) ∧
    (∀ span rest, readExpr tokens = (.error (.unclosed span), rest) →
      rest = [] ∧ LastUnmatched tokens span) := by
  refine ⟨?_, fun d rest => readExpr_eq_ok_iff, ?_, fun span rest => readExpr_eq_stray_iff,
    readExpr_unclosed_iff h, ?_⟩
  · rcases readExpr_cases h with ⟨t, rest, -, hread⟩ | ⟨span, rest, -, hread⟩ |
      ⟨-, span, -, hread⟩ <;> simp [hread]
  · intro t u rest rest' ht hu
    exact tokens_append_inj (ht.symm.trans hu)
  · intro span rest hread
    rcases readExpr_cases h with ⟨t, rest', -, ht⟩ | ⟨span', rest', -, hs⟩ | ⟨-, span', hlast, hs⟩
    · cases ht.symm.trans hread
    · cases hs.symm.trans hread
    · cases hs.symm.trans hread
      exact ⟨rfl, hlast⟩

/-- In `( ( ) ( x` the first list is never closed, and the error is at the third
parenthesis, whatever the spans are and whatever an atom holds. -/
theorem readExpr_unclosed_third_parenthesis :
    StartsUnmatched [⟨.opening, ⟨4, 2⟩⟩, ⟨.opening, ⟨0, 1⟩⟩, ⟨.closing, ⟨0, 1⟩⟩,
        ⟨.opening, ⟨7, 7⟩⟩, ⟨.atom "x )", ⟨1, 9⟩⟩] ∧
      LastUnmatched [⟨.opening, ⟨4, 2⟩⟩, ⟨.opening, ⟨0, 1⟩⟩, ⟨.closing, ⟨0, 1⟩⟩,
        ⟨.opening, ⟨7, 7⟩⟩, ⟨.atom "x )", ⟨1, 9⟩⟩] ⟨7, 7⟩ := by
  have hread : readExpr [⟨.opening, ⟨4, 2⟩⟩, ⟨.opening, ⟨0, 1⟩⟩, ⟨.closing, ⟨0, 1⟩⟩,
      ⟨.opening, ⟨7, 7⟩⟩, ⟨.atom "x )", ⟨1, 9⟩⟩] = (.error (.unclosed ⟨7, 7⟩), []) := rfl
  obtain ⟨-, -, -, -, hstart, hlast⟩ := readExpr_follows_grammar
    [⟨.opening, ⟨4, 2⟩⟩, ⟨.opening, ⟨0, 1⟩⟩, ⟨.closing, ⟨0, 1⟩⟩, ⟨.opening, ⟨7, 7⟩⟩,
      ⟨.atom "x )", ⟨1, 9⟩⟩] (by simp)
  exact ⟨hstart.mp ⟨_, _, hread⟩, (hlast _ _ hread).2⟩

/-! ### Reading to the end -/

theorem readAll_of_ok {tokens rest : List Token} {d : Datum} (h : tokens ≠ [])
    (hread : readExpr tokens = (.ok d, rest)) : readAll tokens = (readAll rest).map (d :: ·) := by
  rw [readAll, dif_neg h]
  simp only [hread]

theorem readAll_of_error {tokens rest : List Token} {e : ReadError} (h : tokens ≠ [])
    (hread : readExpr tokens = (.error e, rest)) : readAll tokens = .error e := by
  rw [readAll, dif_neg h]
  simp only [hread]

@[simp]
theorem readAll_nil : readAll [] = .ok [] := by
  rw [readAll, dif_pos rfl]

/-- Trees are read one after the other, and then what follows them. -/
theorem readAll_tokensOfAll_append (ts : List ParseTree) (rest : List Token) :
    readAll (tokensOfAll ts ++ rest) = (readAll rest).map (ts.map datum ++ ·) := by
  induction ts with
  | nil => cases h : readAll rest <;> simp [h, Except.map]
  | cons t ts ih =>
    have hread := readExpr_tokens t (tokensOfAll ts ++ rest)
    have hne : t.tokens ++ (tokensOfAll ts ++ rest) ≠ [] :=
      List.append_ne_nil_of_left_ne_nil t.tokens_ne_nil _
    rw [tokensOfAll_cons, List.append_assoc, readAll_of_ok hne hread, ih]
    cases readAll rest <;> rfl

theorem readAll_tokensOfAll (ts : List ParseTree) :
    readAll (tokensOfAll ts) = .ok (ts.map datum) := by
  have h := readAll_tokensOfAll_append ts []
  rw [List.append_nil, readAll_nil] at h
  simpa [Except.map] using h

/-- **The three outcomes of reading to the end**: the tokens are trees; a parenthesis is
never matched; or after some trees there is a closing parenthesis that matches nothing. -/
theorem readAll_cases (tokens : List Token) :
    (∃ trees : List ParseTree, tokens = tokensOfAll trees ∧
      readAll tokens = .ok (trees.map datum)) ∨
    (Token.Kind.deficit (tokens.map Token.kind) = 0 ∧
      0 < Token.Kind.unmatched (tokens.map Token.kind) ∧
      ∃ span : Span, readAll tokens = .error (.unclosed span)) ∨
    (∃ (trees : List ParseTree) (span : Span) (rest : List Token),
      tokens = tokensOfAll trees ++ ⟨.closing, span⟩ :: rest ∧
      readAll tokens = .error (.stray span)) := by
  obtain ⟨trees, ⟨opens, rfl⟩ | ⟨closing, rest, rfl⟩⟩ := exists_split tokens
  · rcases opens.eq_nil_or_concat' with rfl | ⟨opens, last, rfl⟩
    · refine .inl ⟨trees, List.append_nil _, ?_⟩
      rw [List.flatMap_nil, List.append_nil, readAll_tokensOfAll]
    · refine .inr (.inl ?_)
      have hne : (opens ++ [last]).flatMap OpenTree.tokens ≠ [] := by simp [OpenTree.tokens]
      obtain ⟨hdeficit, hunmatched⟩ := unmatched_openTrees (opens ++ [last])
      rw [List.map_append, Token.Kind.deficit_append_of_balanced (deficit_tokensOfAll trees)
        (unmatched_tokensOfAll trees), Token.Kind.unmatched_append_of_balanced
        (unmatched_tokensOfAll trees), hdeficit, hunmatched, readAll_tokensOfAll_append,
        readAll_of_error hne (readFrom_openTrees opens last [])]
      exact ⟨rfl, by simp, last.opening, rfl⟩
  · refine .inr (.inr ⟨trees, closing, rest, rfl, ?_⟩)
    rw [readAll_tokensOfAll_append, readAll_of_error (by simp) (readExpr_closing closing rest)]
    rfl

/-- Tokens that are read to the end are trees. -/
theorem exists_trees_of_readAll {tokens : List Token} {ds : List Datum}
    (h : readAll tokens = .ok ds) :
    ∃ trees, tokens = tokensOfAll trees ∧ ds = trees.map datum := by
  rcases readAll_cases tokens with ⟨trees, htokens, hread⟩ | ⟨-, -, span, hread⟩ |
    ⟨trees, span, rest, -, hread⟩
  · exact ⟨trees, htokens, Except.ok.inj (h.symm.trans hread)⟩
  · cases hread.symm.trans h
  · cases hread.symm.trans h

end SmallLisp
