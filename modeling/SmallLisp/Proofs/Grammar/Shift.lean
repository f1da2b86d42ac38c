import SmallLisp.Proofs.Grammar.Reader
import SmallLisp.Proofs.Tokens.Layout

/-!
# Texts one after the other

A text that stands further on in another one is read as it would be on its own, with
every span moved by as many bytes as stand in front of it. The scanner knows the offset
it starts at, so its tokens move with the offset (`SmallLisp.Token.scan_add`). The reader
looks at no offset at all: it only puts spans together, and the span from an opening to a
closing parenthesis moves with the two (`SmallLisp.Span.shift_merge`).

* `SmallLisp.readAll_shift` – **what is read from moved tokens is moved**;
* `SmallLisp.readProgram_append` – **two texts with a blank between them** are read one
  after the other.
-/

namespace SmallLisp

/-! ### Moving spans -/

/-- The span `n` bytes further on. -/
def Span.shift (n : Nat) (s : Span) : Span := ⟨s.start + n, s.stop + n⟩

/-- The span that covers two moved spans is the moved one that covers both. -/
theorem Span.shift_merge (n : Nat) (a b : Span) :
    (a.merge b).shift n = (a.shift n).merge (b.shift n) := by
  simp [shift, merge, Nat.add_min_add_right, Nat.add_max_add_right]

/-- The token `n` bytes further on. -/
def Token.shift (n : Nat) (t : Token) : Token := { t with span := t.span.shift n }

namespace Datum

mutual

/-- **A datum that stands `n` bytes further on**: all its spans are moved, at any depth. -/
def shiftSpans (n : Nat) : Datum → Datum
  | .atom a s => .atom a (s.shift n)
  | .list es s => .list (shiftAllSpans n es) (s.shift n)
  | .primitive p s => .primitive p (s.shift n)
  | .closure id params body frame s =>
    .closure id params (shiftAllSpans n body) frame (s.shift n)

/-- The data of a list, with all their spans moved. -/
def shiftAllSpans (n : Nat) : List Datum → List Datum
  | [] => []
  | d :: ds => shiftSpans n d :: shiftAllSpans n ds

end

theorem shiftAllSpans_eq (n : Nat) (ds : List Datum) :
    shiftAllSpans n ds = ds.map (shiftSpans n) := by
  induction ds with
  | nil => rfl
  | cons d ds ih => rw [shiftAllSpans, ih, List.map_cons]

theorem shiftSpans_list (n : Nat) (es : List Datum) (s : Span) :
    shiftSpans n (.list es s) = .list (es.map (shiftSpans n)) (s.shift n) := by
  rw [shiftSpans, shiftAllSpans_eq]

end Datum

namespace OpenList

/-- An open list `n` bytes further on. -/
def shift (n : Nat) (o : OpenList) : OpenList :=
  ⟨o.opening.shift n, o.elements.map (Datum.shiftSpans n)⟩

theorem shift_push (n : Nat) (o : OpenList) (d : Datum) :
    (o.push d).shift n = (o.shift n).push (d.shiftSpans n) := rfl

theorem shiftSpans_close (n : Nat) (o : OpenList) (closing : Span) :
    (o.close closing).shiftSpans n = (o.shift n).close (closing.shift n) := by
  rw [close, close, Datum.shiftSpans_list, Span.shift_merge, shift, List.map_reverse]

end OpenList

/-! ### The scanner -/

namespace Token

/-- **The tokens of a text move with the offset of its first character.** -/
theorem scan_add (n offset : Nat) (cs : List Char) :
    scan (offset + n) cs = (scan offset cs).map (shift n) := by
  induction cs using text_induction generalizing offset with
  | nil => simp
  | blank c cs hc ih =>
    rw [scan_cons_of_isBlank hc, scan_cons_of_isBlank hc, ← ih, Nat.add_right_comm]
  | lexeme w rest hw ih =>
    rw [scan_lexeme hw, scan_lexeme hw, List.map_cons, ← ih, Nat.add_right_comm]
    rfl

/-- Blanks in front of a text are skipped. -/
theorem scan_blank_append {sep : List Char} (hsep : ∀ c ∈ sep, isBlank c = true) (offset : Nat)
    (cs : List Char) : scan offset (sep ++ cs) = scan (offset + byteLength sep) cs := by
  induction sep generalizing offset with
  | nil => rfl
  | cons c sep ih =>
    obtain ⟨hc, hsep⟩ := List.forall_mem_cons.mp hsep
    rw [List.cons_append, scan_cons_of_isBlank hc, ih hsep, byteLength_cons, Nat.add_assoc]

/-- **The tokens of two texts with a blank between them.** -/
theorem scan_append_blank_append {sep : List Char} (hne : sep ≠ [])
    (hsep : ∀ c ∈ sep, isBlank c = true) (cs ds : List Char) :
    scan 0 (cs ++ sep ++ ds) =
      scan 0 cs ++ (scan 0 ds).map (shift (byteLength (cs ++ sep))) := by
  -- the first blank ends an atom that the first text may end with
  have hhead : ∀ c ∈ (sep ++ ds).head?, isAtomChar c = false := by
    intro c hc
    obtain ⟨b, sep, rfl⟩ := List.exists_cons_of_ne_nil hne
    obtain rfl : b = c := by simpa using hc
    simp [isAtomChar, hsep b List.mem_cons_self]
  rw [List.append_assoc, scan_append 0 cs hhead, scan_blank_append hsep, ← scan_add,
    byteLength_append, ← Nat.add_assoc]

end Token

/-! ### The reader -/

/-- What is read from moved tokens into moved open lists is moved. -/
theorem readFrom_shift (n : Nat) {pending : List OpenList} {tokens rest : List Token} {d : Datum}
    (h : readFrom pending tokens = (.ok d, rest)) :
    readFrom (pending.map (OpenList.shift n)) (tokens.map (Token.shift n)) =
      (.ok (d.shiftSpans n), rest.map (Token.shift n)) := by
  fun_induction readFrom pending tokens with
  | case1 | case2 | case4 => cases h
  | case3 pending span tokens ih =>
    rw [List.map_cons, Token.shift, readFrom_opening]
    exact ih h
  -- the outermost list is closed
  | case5 o span tokens =>
    obtain ⟨hd, rfl⟩ := Prod.mk.inj h
    obtain rfl := Except.ok.inj hd
    rw [List.map_cons, List.map_nil, List.map_cons, Token.shift, readFrom,
      OpenList.shiftSpans_close]
  | case6 o p pending span tokens ih =>
    have hnext := ih h
    rw [List.map_cons, OpenList.shift_push, OpenList.shiftSpans_close] at hnext
    rw [List.map_cons, List.map_cons, List.map_cons, Token.shift, readFrom_closing_inner]
    exact hnext
  -- an atom on its own, and an atom in a list
  | case7 text span tokens =>
    obtain ⟨hd, rfl⟩ := Prod.mk.inj h
    obtain rfl := Except.ok.inj hd
    rw [List.map_nil, List.map_cons, Token.shift, readFrom, Datum.shiftSpans]
  | case8 o pending text span tokens ih =>
    have hnext := ih h
    rw [List.map_cons, OpenList.shift_push, Datum.shiftSpans] at hnext
    rw [List.map_cons, List.map_cons, Token.shift, readFrom]
    exact hnext

/-- **What is read from moved tokens is moved.** -/
theorem readAll_shift (n : Nat) {tokens : List Token} {ds : List Datum}
    (h : readAll tokens = .ok ds) :
    readAll (tokens.map (Token.shift n)) = .ok (ds.map (Datum.shiftSpans n)) := by
  fun_induction readAll tokens generalizing ds with
  | case1 =>
    obtain rfl := Except.ok.inj h
    exact readAll_nil
  | case2 => cases h
  | case3 tokens hne _ d hd ih =>
    rcases hrest : readAll (readExpr tokens).2 with e | es
    · rw [hrest] at h
      cases h
    · rw [hrest] at h
      obtain rfl := Except.ok.inj h
      have hread : readExpr tokens = (.ok d, (readExpr tokens).2) := Prod.ext hd rfl
      have hfirst := readFrom_shift n hread
      rw [readAll_of_ok (by simpa using hne) hfirst, ih hrest]
      rfl

/-- Tokens from which data are read to the end may be followed by others. -/
theorem readAll_append {tokens : List Token} {ds : List Datum} (h : readAll tokens = .ok ds)
    (more : List Token) : readAll (tokens ++ more) = (readAll more).map (ds ++ ·) := by
  rcases readAll_cases tokens with ⟨trees, rfl, hread⟩ | ⟨-, -, span, hread⟩ |
    ⟨trees, span, rest, -, hread⟩
  · obtain rfl := Except.ok.inj (hread.symm.trans h)
    exact readAll_tokensOfAll_append trees more
  · cases hread.symm.trans h
  · cases hread.symm.trans h

/-! ### Texts -/

/-- **Two texts with a blank between them are read one after the other.** The data of the
second one stand further on by what is in front of it. -/
theorem readProgram_append {a b sep : String} {ds es : List Datum}
    (ha : readProgram a = .ok ds) (hb : readProgram b = .ok es) (hne : sep ≠ "")
    (hsep : ∀ c ∈ sep.toList, isBlank c = true) :
    readProgram (a ++ sep ++ b) =
      .ok (ds ++ es.map (Datum.shiftSpans (a ++ sep).utf8ByteSize)) := by
  obtain ⟨hblank, hfirst⟩ := readProgram_eq_ok_iff.mp ha
  obtain ⟨-, hsecond⟩ := readProgram_eq_ok_iff.mp hb
  have hne' : sep.toList ≠ [] := fun hnil => hne (String.toList_eq_nil_iff.mp hnil)
  have htokens : Token.scan 0 (a ++ sep ++ b).toList = Token.scan 0 a.toList ++
      (Token.scan 0 b.toList).map (Token.shift (a ++ sep).utf8ByteSize) := by
    rw [String.toList_append, String.toList_append, Token.scan_append_blank_append hne' hsep,
      ← String.toList_append, byteLength_toList]
  rw [readProgram_eq_ok_iff, htokens, readAll_append hfirst, readAll_shift _ hsecond]
  refine ⟨fun hall => hblank fun c hc => hall c ?_, rfl⟩
  rw [String.toList_append, String.toList_append]
  exact List.mem_append_left _ (List.mem_append_left _ hc)

end SmallLisp
