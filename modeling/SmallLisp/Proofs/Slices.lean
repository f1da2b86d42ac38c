import Mathlib
import SmallLisp.Proofs.Grammar.Shift
import SmallLisp.Proofs.Stock.Basic
import SmallLisp.Proofs.Waiting

/-!
# What stands at a span

The span of a datum says where in the text it was read. The theorem
`SmallLisp.nodes_stand_at_their_spans` says that this is right to the byte, for a datum and
for everything in it: the piece of the text that the span cuts out, read on its own, is the
datum again, moved to the front of the text.

Two things meet here. The scanner is local: any tokens of a text that follow one another
are the tokens of a piece of it, which begins where the first of them does and ends where
the last of them does (`SmallLisp.Token.exists_piece_of_segment`). And what is in a datum was
read from tokens that follow one another (`SmallLisp.ParseTree.exists_subtree`), the first
and the last of which give the span (`SmallLisp.ParseTree.span_datum`).
-/

namespace SmallLisp

/-! ### Pieces of a text -/

namespace Token

variable {offset : Nat} {cs : List Char}

/-- A lexeme is still one if less follows it. -/
theorem Lexeme.of_append {w a b : List Char} (h : Lexeme w (a ++ b)) : Lexeme w a := by
  cases h with
  | opening => exact .opening a
  | closing => exact .closing a
  | word hne hw hrest =>
    refine .word hne hw fun c hc => hrest c ?_
    rw [List.head?_append, Option.mem_def.mp hc]
    rfl

/-- **The tokens from one of them on** are those of the text from there on. -/
theorem exists_cut_before {before rest : List Token} {t : Token}
    (h : scan offset cs = before ++ t :: rest) :
    ∃ a b, cs = a ++ b ∧ scan (offset + byteLength a) b = t :: rest ∧
      t.span.start = offset + byteLength a := by
  induction cs using text_induction generalizing offset before with
  | nil => simp at h
  | blank c cs hc ih =>
    rw [scan_cons_of_isBlank hc] at h
    obtain ⟨a, b, rfl, hscan, hstart⟩ := ih h
    refine ⟨c :: a, b, rfl, ?_, ?_⟩
    · rwa [byteLength_cons, ← Nat.add_assoc]
    · rwa [byteLength_cons, ← Nat.add_assoc]
  | lexeme w cs hw ih =>
    cases before with
    | nil =>
      refine ⟨[], w ++ cs, rfl, h, ?_⟩
      rw [scan_lexeme hw] at h
      obtain ⟨rfl, -⟩ := List.cons.inj h
      rfl
    | cons t before =>
      rw [scan_lexeme hw] at h
      obtain ⟨-, htail⟩ := List.cons.inj h
      obtain ⟨a, b, rfl, hscan, hstart⟩ := ih htail
      refine ⟨w ++ a, b, (List.append_assoc w a b).symm, ?_, ?_⟩
      · rwa [byteLength_append, ← Nat.add_assoc]
      · rwa [byteLength_append, ← Nat.add_assoc]

/-- **The tokens up to one of them** are those of the text up to there. -/
theorem exists_cut_behind {before rest : List Token} {t : Token}
    (h : scan offset cs = before ++ t :: rest) :
    ∃ a b, cs = a ++ b ∧ scan offset a = before ++ [t] ∧ t.span.stop = offset + byteLength a := by
  induction cs using text_induction generalizing offset before with
  | nil => simp at h
  | blank c cs hc ih =>
    rw [scan_cons_of_isBlank hc] at h
    obtain ⟨a, b, rfl, hscan, hstop⟩ := ih h
    refine ⟨c :: a, b, rfl, ?_, ?_⟩
    · rwa [scan_cons_of_isBlank hc]
    · rwa [byteLength_cons, ← Nat.add_assoc]
  | lexeme w cs hw ih =>
    rw [scan_lexeme hw] at h
    cases before with
    | nil =>
      obtain ⟨rfl, -⟩ := List.cons.inj h
      have halone : Lexeme w [] := Lexeme.of_append (b := cs) hw
      refine ⟨w, cs, rfl, ?_, rfl⟩
      have hscan := scan_lexeme halone offset
      rwa [List.append_nil, scan_nil] at hscan
    | cons t before =>
      obtain ⟨rfl, htail⟩ := List.cons.inj h
      obtain ⟨a, b, rfl, hscan, hstop⟩ := ih htail
      refine ⟨w ++ a, b, (List.append_assoc w a b).symm, ?_, ?_⟩
      · rw [scan_lexeme hw.of_append, hscan, List.cons_append]
      · rwa [byteLength_append, ← Nat.add_assoc]

/-- **Tokens that follow one another are the tokens of a piece of the text**, from where the
first of them begins to where the last of them ends. -/
theorem exists_piece_of_segment {tokens : List Token} (h : tokens <:+: scan offset cs)
    {first last : Token} (hfirst : tokens.head? = some first)
    (hlast : tokens.getLast? = some last) :
    ∃ a b c, cs = a ++ b ++ c ∧ scan (offset + byteLength a) b = tokens ∧
      first.span.start = offset + byteLength a ∧
      last.span.stop = offset + byteLength (a ++ b) := by
  obtain ⟨before, after, h⟩ := h
  obtain ⟨rest, rfl⟩ := List.head?_eq_some_iff.mp hfirst
  rw [List.append_assoc, List.cons_append] at h
  obtain ⟨a, b, rfl, hscan, hstart⟩ := exists_cut_before h.symm
  obtain ⟨init, hinit⟩ := List.getLast?_eq_some_iff.mp hlast
  rw [← List.cons_append, hinit, List.append_assoc] at hscan
  obtain ⟨b, c, rfl, hscan, hstop⟩ := exists_cut_behind hscan
  refine ⟨a, b, c, (List.append_assoc a b c).symm, hscan.trans hinit.symm, hstart, ?_⟩
  rw [hstop, byteLength_append, Nat.add_assoc]

/-- A token takes as many bytes as its text. -/
theorem stop_eq_of_mem_scan {t : Token} (ht : t ∈ scan offset cs) :
    t.span.stop = t.span.start + t.kind.text.utf8ByteSize := by
  obtain ⟨before, w, after, -, -, htext, hspan⟩ := exists_cut_of_mem_scan ht
  rw [hspan, htext, utf8ByteSize_ofList]

/-- A text that begins with a token begins with the text of the token. -/
theorem exists_eq_text_append {t : Token} (ht : t ∈ scan offset cs)
    (hstart : t.span.start = offset) : ∃ rest, cs = t.kind.text.toList ++ rest := by
  obtain ⟨before, w, after, rfl, -, htext, hspan⟩ := exists_cut_of_mem_scan ht
  obtain rfl : before = [] := by
    rw [hspan] at hstart
    exact byteLength_eq_zero_iff.mp (Nat.add_eq_left.mp hstart)
  exact ⟨after, by rw [htext, String.toList_ofList, List.nil_append]⟩

/-- A text that ends with a token ends with the text of the token. -/
theorem exists_eq_append_text {t : Token} (ht : t ∈ scan offset cs)
    (hstop : t.span.stop = offset + byteLength cs) : ∃ rest, cs = rest ++ t.kind.text.toList := by
  obtain ⟨before, w, after, rfl, -, htext, hspan⟩ := exists_cut_of_mem_scan ht
  obtain rfl : after = [] := by
    rw [hspan] at hstop
    simp only [byteLength_append] at hstop
    exact byteLength_eq_zero_iff.mp (by omega)
  exact ⟨before, by rw [htext, String.toList_ofList, List.append_nil]⟩

end Token

/-- A piece of the characters of a text is cut out by the span that counts its bytes. -/
theorem cuts_of_toList_eq {text : String} {a b c : List Char} (h : text.toList = a ++ b ++ c) :
    Span.Cuts ⟨byteLength a, byteLength (a ++ b)⟩ text (String.ofList b) := by
  refine ⟨String.ofList a, String.ofList c, ?_, ?_, ?_⟩
  · rw [← String.ofList_append, ← String.ofList_append, ← h, String.ofList_toList]
  · exact (utf8ByteSize_ofList a).symm
  · rw [← String.ofList_append, utf8ByteSize_ofList]

/-! ### Trees in a text -/

namespace ParseTree

variable {offset : Nat} {cs : List Char}

theorem tokens_infix_of_mem {t : ParseTree} {ts : List ParseTree} (h : t ∈ ts) :
    t.tokens <:+: tokensOfAll ts := by
  obtain ⟨before, after, rfl⟩ := List.append_of_mem h
  refine ⟨tokensOfAll before, tokensOfAll after, ?_⟩
  simp [tokensOfAll_eq]

theorem tokensOfAll_infix_tokens (opening closing : Span) (ts : List ParseTree) :
    tokensOfAll ts <:+: (ParseTree.list opening ts closing).tokens :=
  ⟨[⟨.opening, opening⟩], [⟨.closing, closing⟩], rfl⟩

/-- **Every node of a datum was read from tokens that follow one another.** -/
theorem exists_subtree {t : ParseTree} {n : Datum} (h : n ∈ t.datum.nodes) :
    ∃ u : ParseTree, u.datum = n ∧ u.tokens <:+: t.tokens := by
  induction t using ParseTree.induction with
  | atom text span =>
    obtain rfl := List.mem_singleton.mp h
    exact ⟨.atom text span, rfl, List.infix_refl _⟩
  | list opening ts closing ih =>
    rw [datum_list, data_eq, Datum.nodes, Datum.nodesOfAll_eq] at h
    rcases List.mem_cons.mp h with rfl | h
    · exact ⟨.list opening ts closing, by rw [datum_list, data_eq], List.infix_refl _⟩
    · obtain ⟨d, hd, hn⟩ := List.mem_flatMap.mp h
      obtain ⟨t, ht, rfl⟩ := List.mem_map.mp hd
      obtain ⟨u, hu, hsegment⟩ := ih t ht hn
      refine ⟨u, hu, hsegment.trans ((tokens_infix_of_mem ht).trans ?_)⟩
      exact tokensOfAll_infix_tokens opening closing ts

/-- The parentheses of a list take a byte each, and the closing one stands behind the
opening one. -/
theorem span_parentheses {opening closing : Span} {ts : List ParseTree}
    (h : (ParseTree.list opening ts closing).tokens <:+: Token.scan offset cs) :
    opening.stop = opening.start + 1 ∧ closing.stop = closing.start + 1 ∧
      opening.stop ≤ closing.start := by
  have hmem : ∀ t ∈ (ParseTree.list opening ts closing).tokens, t ∈ Token.scan offset cs :=
    fun t ht => h.subset ht
  have hpair := (Token.pairwise_scan offset cs).sublist h.sublist
  refine ⟨?_, ?_, (List.pairwise_cons.mp hpair).1 ⟨.closing, closing⟩ (by simp)⟩
  · exact Token.stop_eq_of_mem_scan (hmem ⟨.opening, opening⟩ (by simp))
  · exact Token.stop_eq_of_mem_scan (hmem ⟨.closing, closing⟩ (by simp))

/-- A list begins with its opening and ends with its closing parenthesis. -/
theorem merge_parentheses {opening closing : Span} {ts : List ParseTree}
    (h : (ParseTree.list opening ts closing).tokens <:+: Token.scan offset cs) :
    opening.merge closing = ⟨opening.start, closing.stop⟩ := by
  obtain ⟨hopening, hclosing, horder⟩ := span_parentheses h
  rw [Span.merge, Nat.min_eq_left (by omega), Nat.max_eq_right (by omega)]

/-- **The span of a datum** begins with its first token and ends with its last one. -/
theorem span_datum {u : ParseTree} (h : u.tokens <:+: Token.scan offset cs) :
    ∃ first last, u.tokens.head? = some first ∧ u.tokens.getLast? = some last ∧
      u.datum.span = ⟨first.span.start, last.span.stop⟩ := by
  cases u with
  | atom text span => exact ⟨_, _, rfl, rfl, rfl⟩
  | list opening ts closing =>
    refine ⟨⟨.opening, opening⟩, ⟨.closing, closing⟩, rfl, ?_, merge_parentheses h⟩
    rw [tokens_list, ← List.cons_append, List.getLast?_concat]

/-- **The text of a tree**: the span of its datum is not empty, and cuts a piece out of the
text that is scanned as the tokens of the tree. -/
theorem exists_slice {u : ParseTree} {text : String}
    (h : u.tokens <:+: Token.scan 0 text.toList) :
    ∃ b, u.datum.span.Cuts text (String.ofList b) ∧
      Token.scan u.datum.span.start b = u.tokens ∧
      u.datum.span.stop = u.datum.span.start + byteLength b ∧
      u.datum.span.start < u.datum.span.stop ∧ u.datum.span.stop ≤ text.utf8ByteSize := by
  obtain ⟨first, last, hfirst, hlast, hspan⟩ := span_datum h
  obtain ⟨a, b, c, htext, hscan, hstart, hstop⟩ := Token.exists_piece_of_segment h hfirst hlast
  rw [Nat.zero_add] at hscan hstart hstop
  rw [hspan, hstart, hstop]
  have hpos : 0 < byteLength b := Nat.pos_of_ne_zero fun hzero => by
    rw [byteLength_eq_zero_iff.mp hzero, Token.scan_nil] at hscan
    exact u.tokens_ne_nil hscan.symm
  refine ⟨b, cuts_of_toList_eq htext, hscan, byteLength_append a b, ?_, ?_⟩
  · rw [byteLength_append]
    exact Nat.lt_add_of_pos_right hpos
  · rw [← byteLength_toList, htext, byteLength_append (a ++ b)]
    exact Nat.le_add_right _ _

/-- **The text of a tree is read as its datum**, moved to the front. -/
theorem readProgram_piece {u : ParseTree} {n : Nat} {b : List Char}
    (h : Token.scan n b = u.tokens) :
    ∃ m, readProgram (String.ofList b) = .ok [m] ∧ m.shiftSpans n = u.datum := by
  -- the parentheses of the text are those of the tree, so it can be read
  have hok : ∃ ds, readProgram (String.ofList b) = .ok ds := by
    obtain ⟨hdeficit, hunmatched⟩ := u.balanced_tokens
    rw [readProgram_ok_iff, String.toList_ofList, ← Token.deficit_scan n, ← Token.unmatched_scan n,
      h, ← @Token.scan_eq_nil_iff n, h]
    exact ⟨u.tokens_ne_nil, hdeficit, hunmatched⟩
  obtain ⟨ds, hds⟩ := hok
  obtain ⟨-, hread⟩ := readProgram_eq_ok_iff.mp hds
  -- what is read moves with the tokens, and the tokens at `n` are read as the datum
  have hmoved := readAll_shift n hread
  have htree : readAll u.tokens = .ok [u.datum] := by
    simpa using readAll_tokensOfAll [u]
  rw [String.toList_ofList, ← Token.scan_add, Nat.zero_add, h, htree] at hmoved
  obtain ⟨m, rfl, hm⟩ := List.map_eq_singleton_iff.mp (Except.ok.inj hmoved).symm
  exact ⟨m, hds, hm⟩

end ParseTree

/-! ### Data in order -/

/-- **Data that stand in order**: each ends before the ones after it begin. -/
def InOrder (ds : List Datum) : Prop := ds.Pairwise fun d e => d.span.stop ≤ e.span.start

namespace ParseTree

variable {offset : Nat} {cs : List Char}

/-- Trees that follow one another have data that stand in order. -/
theorem inOrder_data {ts : List ParseTree} (h : tokensOfAll ts <:+: Token.scan offset cs) :
    InOrder (ts.map datum) := by
  have hpair := (Token.pairwise_scan offset cs).sublist h.sublist
  rw [tokensOfAll_eq, List.pairwise_flatMap] at hpair
  rw [InOrder, List.pairwise_map]
  refine hpair.2.imp_of_mem fun {t u} ht hu htu => ?_
  obtain ⟨_, last, -, hlast, htspan⟩ := span_datum ((tokens_infix_of_mem ht).trans h)
  obtain ⟨first, _, hfirst, -, huspan⟩ := span_datum ((tokens_infix_of_mem hu).trans h)
  rw [htspan, huspan]
  exact htu last (List.mem_of_getLast? hlast) first (List.mem_of_head? hfirst)

/-- The elements of a list stand in order, between its parentheses. -/
theorem elements_between {opening closing : Span} {ts : List ParseTree}
    (h : (ParseTree.list opening ts closing).tokens <:+: Token.scan offset cs) :
    InOrder (ts.map datum) ∧ ∀ e ∈ ts.map datum,
      (opening.merge closing).start + 1 ≤ e.span.start ∧
      e.span.stop + 1 ≤ (opening.merge closing).stop := by
  have hinner := (tokensOfAll_infix_tokens opening closing ts).trans h
  refine ⟨inOrder_data hinner, fun e he => ?_⟩
  obtain ⟨t, ht, rfl⟩ := List.mem_map.mp he
  have hsegment := tokens_infix_of_mem ht
  obtain ⟨first, last, hfirst, hlast, hspan⟩ := span_datum (hsegment.trans hinner)
  have hpair := (Token.pairwise_scan offset cs).sublist h.sublist
  rw [tokens_list, List.pairwise_cons, List.pairwise_append] at hpair
  obtain ⟨hbegin, -, -, hend⟩ := hpair
  obtain ⟨hopening, hclosing, -⟩ := span_parentheses h
  rw [merge_parentheses h, hspan, ← hopening]
  constructor
  · exact hbegin first (List.mem_append_left _ (hsegment.subset (List.mem_of_head? hfirst)))
  · change last.span.stop + 1 ≤ closing.stop
    rw [hclosing]
    have hlt := hend last (hsegment.subset (List.mem_of_getLast? hlast)) _ List.mem_cons_self
    exact Nat.succ_le_succ hlt

/-- The text of a list begins and ends with its parentheses. -/
theorem exists_inner {opening closing : Span} {ts : List ParseTree} {n : Nat} {b : List Char}
    (h : Token.scan n b = (ParseTree.list opening ts closing).tokens)
    (hstart : (opening.merge closing).start = n)
    (hstop : (opening.merge closing).stop = n + byteLength b) :
    ∃ inner, String.ofList b = "(" ++ inner ++ ")" := by
  have hsegment : (ParseTree.list opening ts closing).tokens <:+: Token.scan n b :=
    ⟨[], [], by rw [h, List.append_nil, List.nil_append]⟩
  have hmem : ∀ t ∈ (ParseTree.list opening ts closing).tokens, t ∈ Token.scan n b :=
    fun t ht => hsegment.subset ht
  rw [merge_parentheses hsegment] at hstart hstop
  obtain ⟨rest, hrest⟩ := Token.exists_eq_text_append (hmem ⟨.opening, opening⟩ (by simp)) hstart
  obtain ⟨init, hinit⟩ := Token.exists_eq_append_text (hmem ⟨.closing, closing⟩ (by simp)) hstop
  have hopening : b = '(' :: rest := by simpa [Token.Kind.text] using hrest
  have hclosing : b = init ++ [')'] := by simpa [Token.Kind.text] using hinit
  -- the two parentheses are not the same character
  cases init with
  | nil => cases hopening.symm.trans hclosing
  | cons c inner =>
    obtain ⟨rfl, -⟩ := List.cons.inj (hopening.symm.trans hclosing)
    exact ⟨String.ofList inner, by simp [← String.toList_inj, hclosing]⟩

end ParseTree

/-! ### The theorem -/

/-- **What is read stands at its span.** Let a text be read, and take any node of any datum.
Its span is not empty and cuts a piece out of the text; this piece is read as the node
alone, with all its spans moved to the front. If the node is a list, the piece is a pair of
parentheses and what is between them, where the elements of the list stand in order. The
data of the text stand in order as well. -/
theorem nodes_stand_at_their_spans {text : String} {ds : List Datum}
    (h : readProgram text = .ok ds) :
    (∀ d ∈ ds, ∀ n ∈ d.nodes,
      n.span.start < n.span.stop ∧ n.span.stop ≤ text.utf8ByteSize ∧
      ∃ piece, n.span.Cuts text piece ∧
        (∃ m, readProgram piece = .ok [m] ∧ m.shiftSpans n.span.start = n) ∧
        ∀ es span, n = .list es span →
          (∃ inner, piece = "(" ++ inner ++ ")") ∧ InOrder es ∧
          ∀ e ∈ es, span.start + 1 ≤ e.span.start ∧ e.span.stop + 1 ≤ span.stop) ∧
    InOrder ds := by
  obtain ⟨-, hread⟩ := readProgram_eq_ok_iff.mp h
  obtain ⟨trees, htokens, rfl⟩ := exists_trees_of_readAll hread
  have hall : ParseTree.tokensOfAll trees <:+: Token.scan 0 text.toList :=
    htokens.symm ▸ List.infix_refl _
  refine ⟨fun d hd n hn => ?_, ParseTree.inOrder_data hall⟩
  obtain ⟨t, ht, rfl⟩ := List.mem_map.mp hd
  obtain ⟨u, rfl, hu⟩ := ParseTree.exists_subtree hn
  have hsegment := hu.trans ((ParseTree.tokens_infix_of_mem ht).trans hall)
  obtain ⟨b, hcuts, hscan, hstop, hpos, hwithin⟩ := ParseTree.exists_slice hsegment
  refine ⟨hpos, hwithin, String.ofList b, hcuts, ParseTree.readProgram_piece hscan, ?_⟩
  intro es span hlist
  cases u with
  | atom => cases hlist
  | list opening ts closing =>
    rw [ParseTree.datum_list, ParseTree.data_eq] at hlist
    obtain ⟨rfl, rfl⟩ := Datum.list.inj hlist
    exact ⟨ParseTree.exists_inner hscan rfl hstop, ParseTree.elements_between hsegment⟩

/-- In `é(f (λ b)x)`, with a blank of three bytes after `λ`, the inner list stands at the bytes
from 5 up to 13. -/
theorem inner_list_read_alone :
    let inner : Datum := .list [.symbol "λ" ⟨6, 8⟩, .symbol "b" ⟨11, 12⟩] ⟨5, 13⟩
    let outer : Datum := .list [.symbol "f" ⟨3, 4⟩, inner, .symbol "x" ⟨13, 14⟩] ⟨2, 15⟩
    readProgram "é(f (λ\u3000b)x)" = .ok [.symbol "é" ⟨0, 2⟩, outer] ∧
      ∃ piece, Span.Cuts ⟨5, 13⟩ "é(f (λ\u3000b)x)" piece ∧
        (∃ m, readProgram piece = .ok [m] ∧ m.shiftSpans 5 = inner) ∧
        ∃ between, piece = "(" ++ between ++ ")" := by
  intro inner outer
  have htokens : Token.scan 0 "é(f (λ\u3000b)x)".toList = [⟨.atom "é", ⟨0, 2⟩⟩,
      ⟨.opening, ⟨2, 3⟩⟩, ⟨.atom "f", ⟨3, 4⟩⟩, ⟨.opening, ⟨5, 6⟩⟩, ⟨.atom "λ", ⟨6, 8⟩⟩,
      ⟨.atom "b", ⟨11, 12⟩⟩, ⟨.closing, ⟨12, 13⟩⟩, ⟨.atom "x", ⟨13, 14⟩⟩,
      ⟨.closing, ⟨14, 15⟩⟩] := by
    cbv
  have hread : readProgram "é(f (λ\u3000b)x)" = .ok [.symbol "é" ⟨0, 2⟩, outer] := by
    rw [readProgram_of_scan htokens]
    unfold outer inner
    cbv
  have hinner : inner ∈ outer.nodes := .tail _ (.tail _ (.head _))
  obtain ⟨-, -, piece, hcuts, hm, hlist⟩ :=
    (nodes_stand_at_their_spans hread).1 outer (.tail _ (.head _)) inner hinner
  exact ⟨hread, piece, hcuts, hm, (hlist _ _ rfl).1⟩

end SmallLisp
