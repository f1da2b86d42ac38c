import SmallLisp.Proofs.Grammar.Depth
import SmallLisp.Reader

/-!
# The grammar of expressions

An expression is an atom, or expressions between an opening and a closing parenthesis.
A parse tree keeps all of that, token by token: `SmallLisp.ParseTree.tokens` writes it
out again, and `SmallLisp.ParseTree.datum` is the datum that it stands for, in which the
spelling of atoms and the spans of single parentheses are lost.

* `SmallLisp.ParseTree.tokens_append_inj` – **the grammar is unambiguous**: tokens begin
  with at most one tree;
* `SmallLisp.ParseTree.balanced_tokens` – the parentheses of a tree match one another;
* `SmallLisp.exists_split` – **what any tokens look like**: trees, and after them either
  a closing parenthesis that matches nothing, or opening parentheses that are never
  matched, each with trees behind it.
-/

namespace SmallLisp

/-- **An expression as it is written.** -/
inductive ParseTree where
  /-- An atom, by its text. -/
  | atom (text : String) (span : Span)
  /-- A list, with the spans of its two parentheses. -/
  | list (opening : Span) (children : List ParseTree) (closing : Span)

namespace ParseTree

/-- Induction on parse trees, with the hypothesis for every child of a list. -/
theorem induction {motive : ParseTree → Prop}
    (atom : ∀ text span, motive (.atom text span))
    (list : ∀ opening children closing, (∀ t ∈ children, motive t) →
      motive (.list opening children closing))
    (t : ParseTree) : motive t :=
  @ParseTree.rec motive (fun ts => ∀ t ∈ ts, motive t) atom list
    (fun _ h => absurd h List.not_mem_nil)
    (fun _ _ ht hts t h => (List.mem_cons.mp h).elim (fun e => e ▸ ht) (hts t)) t

/-! ### Tokens and data of a tree -/

mutual

/-- **The tokens of a tree**, from left to right. -/
def tokens : ParseTree → List Token
  | .atom text span => [⟨.atom text, span⟩]
  | .list opening children closing =>
    ⟨.opening, opening⟩ :: (tokensOfAll children ++ [⟨.closing, closing⟩])

/-- The tokens of trees that follow one another. -/
def tokensOfAll : List ParseTree → List Token
  | [] => []
  | t :: ts => tokens t ++ tokensOfAll ts

end

mutual

/-- **The datum that a tree stands for**: an atom is what its text spells, and a list
covers everything from its opening to its closing parenthesis. -/
def datum : ParseTree → Datum
  | .atom text span => .atom (.ofText text) span
  | .list opening children closing => .list (data children) (opening.merge closing)

/-- The data of trees that follow one another. -/
def data : List ParseTree → List Datum
  | [] => []
  | t :: ts => datum t :: data ts

end

@[simp]
theorem tokens_atom (text : String) (span : Span) :
    (ParseTree.atom text span).tokens = [⟨.atom text, span⟩] := rfl

@[simp]
theorem tokens_list (opening closing : Span) (ts : List ParseTree) :
    (ParseTree.list opening ts closing).tokens =
      ⟨.opening, opening⟩ :: (tokensOfAll ts ++ [⟨.closing, closing⟩]) := rfl

theorem tokens_ne_nil (t : ParseTree) : t.tokens ≠ [] := by cases t <;> simp

@[simp]
theorem tokensOfAll_nil : tokensOfAll [] = [] := rfl

@[simp]
theorem tokensOfAll_cons (t : ParseTree) (ts : List ParseTree) :
    tokensOfAll (t :: ts) = t.tokens ++ tokensOfAll ts := rfl

theorem tokensOfAll_eq (ts : List ParseTree) : tokensOfAll ts = ts.flatMap tokens := by
  induction ts with
  | nil => rfl
  | cons t ts ih => rw [tokensOfAll_cons, ih, List.flatMap_cons]

@[simp]
theorem datum_atom (text : String) (span : Span) :
    (ParseTree.atom text span).datum = .atom (.ofText text) span := rfl

@[simp]
theorem datum_list (opening closing : Span) (ts : List ParseTree) :
    (ParseTree.list opening ts closing).datum = .list (data ts) (opening.merge closing) := rfl

@[simp]
theorem data_eq (ts : List ParseTree) : data ts = ts.map datum := by
  induction ts with
  | nil => rfl
  | cons t ts ih => rw [data, ih, List.map_cons]

/-! ### Unambiguity -/

/-- No tree begins with a closing parenthesis. -/
theorem tokens_append_ne_closing (t : ParseTree) (closing : Span) (rest rest' : List Token) :
    t.tokens ++ rest ≠ ⟨.closing, closing⟩ :: rest' := by
  cases t <;> simp

/-- What is read up to a closing parenthesis that matches nothing before it is read in
one way only, if this is so for each tree of the first reading. -/
theorem tokensOfAll_closing_inj {ts us : List ParseTree} {c d : Span} {rest rest' : List Token}
    (htree : ∀ t ∈ ts, ∀ (u : ParseTree) (r s : List Token),
      t.tokens ++ r = u.tokens ++ s → t = u ∧ r = s)
    (h : tokensOfAll ts ++ ⟨.closing, c⟩ :: rest = tokensOfAll us ++ ⟨.closing, d⟩ :: rest') :
    ts = us ∧ c = d ∧ rest = rest' := by
  induction ts generalizing us with
  | nil =>
    cases us with
    | nil => simpa using h
    | cons u us =>
      rw [tokensOfAll_cons, List.append_assoc] at h
      exact absurd h.symm (tokens_append_ne_closing u c _ rest)
  | cons t ts ih =>
    obtain ⟨ht, hts⟩ := List.forall_mem_cons.mp htree
    cases us with
    | nil =>
      rw [tokensOfAll_cons, List.append_assoc] at h
      exact absurd h (tokens_append_ne_closing t d _ rest')
    | cons u us =>
      rw [tokensOfAll_cons, tokensOfAll_cons, List.append_assoc, List.append_assoc] at h
      obtain ⟨rfl, htail⟩ := ht u _ _ h
      obtain ⟨rfl, hcd, hrest⟩ := ih hts htail
      exact ⟨rfl, hcd, hrest⟩

/-- **The grammar is unambiguous**: the tree that tokens begin with, and so what is left
after it, is determined by the tokens. -/
theorem tokens_append_inj {t u : ParseTree} {rest rest' : List Token}
    (h : t.tokens ++ rest = u.tokens ++ rest') : t = u ∧ rest = rest' := by
  induction t using ParseTree.induction generalizing u rest rest' with
  | atom text span =>
    cases u with
    | atom => simpa using h
    | list => simp at h
  | list opening ts closing ih =>
    cases u with
    | atom => simp at h
    | list opening' us closing' =>
      simp only [tokens_list, List.cons_append, List.append_assoc, List.nil_append,
        List.cons.injEq, Token.mk.injEq, true_and] at h
      obtain ⟨rfl, h⟩ := h
      obtain ⟨rfl, rfl, rfl⟩ := tokensOfAll_closing_inj (fun t ht u r s => ih t ht) h
      exact ⟨rfl, rfl⟩

/-! ### The parentheses of a tree -/

open Token Kind

/-- If the parentheses of each tree match one another, so do those of all of them. -/
theorem balanced_tokensOfAll_of_forall {ts : List ParseTree}
    (h : ∀ t ∈ ts, deficit (t.tokens.map kind) = 0 ∧ unmatched (t.tokens.map kind) = 0) :
    deficit ((tokensOfAll ts).map kind) = 0 ∧ unmatched ((tokensOfAll ts).map kind) = 0 := by
  induction ts with
  | nil => exact ⟨rfl, rfl⟩
  | cons t ts ih =>
    obtain ⟨⟨hd, hu⟩, hts⟩ := List.forall_mem_cons.mp h
    rw [tokensOfAll_cons, List.map_append, deficit_append_of_balanced hd hu,
      unmatched_append_of_balanced hu]
    exact ih hts

/-- **The parentheses of a tree match one another.** -/
theorem balanced_tokens (t : ParseTree) :
    deficit (t.tokens.map kind) = 0 ∧ unmatched (t.tokens.map kind) = 0 := by
  induction t using ParseTree.induction with
  | atom text span => exact ⟨rfl, rfl⟩
  | list opening ts closing ih =>
    obtain ⟨hd, hu⟩ := balanced_tokensOfAll_of_forall ih
    have hend : deficit ((tokensOfAll ts).map kind ++ [.closing]) = 1 := by
      rw [deficit_append_of_balanced hd hu]
      rfl
    simp only [tokens_list, List.map_cons, List.map_append, List.map_nil]
    rw [deficit_opening, unmatched_opening, hend, unmatched_append_of_balanced hu]
    exact ⟨rfl, rfl⟩

theorem deficit_tokensOfAll (ts : List ParseTree) : deficit ((tokensOfAll ts).map kind) = 0 :=
  (balanced_tokensOfAll_of_forall fun t _ => balanced_tokens t).1

theorem unmatched_tokensOfAll (ts : List ParseTree) : unmatched ((tokensOfAll ts).map kind) = 0 :=
  (balanced_tokensOfAll_of_forall fun t _ => balanced_tokens t).2

end ParseTree

/-! ### What any tokens look like -/

/-- An opening parenthesis that is never matched, and the trees behind it. -/
structure OpenTree where
  /-- The span of the parenthesis. -/
  opening : Span
  /-- The trees up to the next parenthesis that is never matched, or to the end. -/
  children : List ParseTree

/-- The tokens of an opening parenthesis and of the trees behind it. -/
def OpenTree.tokens (o : OpenTree) : List Token :=
  ⟨.opening, o.opening⟩ :: ParseTree.tokensOfAll o.children

/-- **What any tokens look like**: trees first, and after them either opening parentheses
that are never matched, each with trees behind it, or a closing parenthesis that matches
nothing. -/
theorem exists_split (tokens : List Token) :
    ∃ trees : List ParseTree,
      (∃ opens : List OpenTree,
        tokens = ParseTree.tokensOfAll trees ++ opens.flatMap OpenTree.tokens) ∨
      ∃ (closing : Span) (rest : List Token),
        tokens = ParseTree.tokensOfAll trees ++ ⟨.closing, closing⟩ :: rest := by
  -- on the number of tokens: what follows the match of an opening parenthesis is shorter
  induction hn : tokens.length using Nat.strong_induction_on generalizing tokens with
  | _ n ih =>
    subst hn
    match tokens with
    | [] => exact ⟨[], .inl ⟨[], rfl⟩⟩
    | ⟨.closing, span⟩ :: tokens => exact ⟨[], .inr ⟨span, tokens, rfl⟩⟩
    | ⟨.atom text, span⟩ :: tokens =>
      obtain ⟨trees, h⟩ := ih _ (Nat.lt_succ_self _) tokens rfl
      refine ⟨.atom text span :: trees, h.imp ?_ ?_⟩
      · rintro ⟨opens, rfl⟩
        exact ⟨opens, rfl⟩
      · rintro ⟨closing, rest, rfl⟩
        exact ⟨closing, rest, rfl⟩
    | ⟨.opening, span⟩ :: tokens =>
      obtain ⟨children, ⟨opens, rfl⟩ | ⟨closing, rest, rfl⟩⟩ := ih _ (Nat.lt_succ_self _) tokens rfl
      · exact ⟨[], .inl ⟨⟨span, children⟩ :: opens, rfl⟩⟩
      · -- the parenthesis is matched here, and its tree is the first one
        have hlength : rest.length <
            (⟨.opening, span⟩ :: (ParseTree.tokensOfAll children ++
              ⟨.closing, closing⟩ :: rest) : List Token).length := by
          simp only [List.length_cons, List.length_append]
          omega
        obtain ⟨trees, h⟩ := ih _ hlength rest rfl
        refine ⟨.list span children closing :: trees, h.imp ?_ ?_⟩
        · rintro ⟨opens, rfl⟩
          exact ⟨opens, by simp⟩
        · rintro ⟨closing', rest', rfl⟩
          exact ⟨closing', rest', by simp⟩

/-- Each opening parenthesis that is never matched counts as one. -/
theorem unmatched_openTrees (opens : List OpenTree) :
    Token.Kind.deficit ((opens.flatMap OpenTree.tokens).map Token.kind) = 0 ∧
      Token.Kind.unmatched ((opens.flatMap OpenTree.tokens).map Token.kind) = opens.length := by
  induction opens with
  | nil => exact ⟨rfl, rfl⟩
  | cons o opens ih =>
    obtain ⟨hd, hu⟩ := ih
    have hchildren := ParseTree.unmatched_tokensOfAll o.children
    simp only [List.flatMap_cons, OpenTree.tokens, List.cons_append, List.map_cons,
      List.map_append]
    rw [Token.Kind.deficit_opening, Token.Kind.unmatched_opening,
      Token.Kind.deficit_append_of_balanced (ParseTree.deficit_tokensOfAll o.children) hchildren,
      Token.Kind.unmatched_append_of_balanced hchildren, hd, hu]
    exact ⟨rfl, rfl⟩

end SmallLisp
