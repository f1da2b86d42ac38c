import SmallLisp.Datum.Render
import SmallLisp.Proofs.Grammar.Reader
import SmallLisp.Proofs.Number.Literal
import SmallLisp.Proofs.SpanBlind
import SmallLisp.Proofs.Tokens.Layout

/-!
# Printing and reading

The printer escapes nothing, so not every datum survives being printed and read. Those
that do are the *readable* ones (`SmallLisp.Datum.Readable`): they hold no procedures, and
their texts and symbols hold no character that would end a token or a quoted text.

* `SmallLisp.Atom.ofText_render` – a readable atom is what its printed form spells;
* `SmallLisp.Datum.exists_tree_of_readable` – **the printed form of a readable datum is
  scanned as the tokens of one tree**, which stands for the datum up to its spans;
* `SmallLisp.ParseTree.readable_datum` – what is read from the tokens of a text is
  readable.

The theorem `SmallLisp.printing_and_reading_inverse` puts the two directions together.
-/

namespace SmallLisp

/-! ### Readable data -/

/-- **An atom that survives printing**: a number, a boolean, a text without blanks,
parentheses and quotes, or a name that is one token and is not taken for anything else. -/
def Atom.Readable : Atom → Prop
  | .number _ => True
  | .boolean _ => True
  | .text content =>
    ∀ c ∈ content.toList, Token.isAtomChar c = true ∧ c ≠ '"' ∧ c ≠ '\''
  | .symbol name => Token.IsWord name ∧ Atom.ofText name = .symbol name

/-- **A datum that survives printing**: no procedure is in it, and all its atoms are
readable. -/
inductive Datum.Readable : Datum → Prop
  | atom {a : Atom} (span : Span) (h : a.Readable) : Readable (.atom a span)
  | list {es : List Datum} (span : Span) (h : ∀ e ∈ es, Readable e) : Readable (.list es span)

/-! ### Atoms -/

namespace Atom

/-- **A quoted text** is anything quotable between two double quotes. -/
theorem quoted?_eq_some_iff {cs : List Char} {content : String} :
    quoted? cs = some content ↔
      cs = '"' :: (content.toList ++ ['"']) ∧ ∀ c ∈ content.toList, isQuotable c = true := by
  constructor
  · intro h
    unfold quoted? at h
    split at h
    · next ds =>
      split at h
      · next hlast =>
        have hds : ds.dropLast ++ ['"'] = ds := List.dropLast_append_getLast? _ hlast
        simp only [Option.ite_none_right_eq_some, List.all_eq_true, Option.some.injEq] at h
        obtain ⟨hall, rfl⟩ := h
        rw [String.toList_ofList, hds]
        exact ⟨rfl, hall⟩
      · cases h
    · cases h
  · rintro ⟨rfl, hall⟩
    simpa [quoted?] using hall

/-- A text that begins with a double quote is no number. -/
theorem numberLiteral?_of_quote (cs : List Char) : numberLiteral? ('"' :: cs) = none := by
  have hdecimal : Decimal.ofChars? ('"' :: cs) = none := rfl
  rw [numberLiteral?, hdecimal]
  have hword : ∀ word : String,
      word.toList.head? ≠ some '"' → String.ofList ('"' :: cs) ≠ word := by
    rintro word hhead rfl
    simp at hhead
  simp only [namedNumber?]
  split
  · next h => exact absurd h (hword _ (by decide))
  · next h => exact absurd h (hword _ (by decide))
  · next h => exact absurd h (hword _ (by decide))
  · next h => exact absurd h (hword _ (by decide))
  · rfl

/-- A readable atom is printed as a word. -/
theorem isWord_render {a : Atom} (h : a.Readable) : Token.IsWord a.render := by
  cases a with
  | number x => exact isWord_renderNumber x
  | boolean b =>
    have hwords : "t".toList.all Token.isAtomChar = true ∧
        "nil".toList.all Token.isAtomChar = true := by decide
    cases b with
    | false => exact ⟨by decide, List.all_eq_true.mp hwords.2⟩
    | true => exact ⟨by decide, List.all_eq_true.mp hwords.1⟩
  | text content =>
    have hquote : Token.isAtomChar '"' = true := by decide
    have hcontent : ∀ c ∈ content.toList, Token.isAtomChar c = true := fun c hc => (h c hc).1
    refine ⟨fun hempty => ?_, ?_⟩
    · simpa [render] using congrArg String.toList hempty
    · simpa [render, hquote, or_imp, forall_and] using hcontent
  | symbol name => exact h.1

/-- **A readable atom is what its printed form spells.** -/
theorem ofText_render {a : Atom} (h : a.Readable) : ofText a.render = a := by
  cases a with
  | number x => rw [render, ofText, numberLiteral?_renderNumber]
  | boolean b => cases b <;> rfl
  | text content =>
    have hchars : (render (.text content)).toList = '"' :: (content.toList ++ ['"']) := by
      simp [render]
    have hquoted : quoted? (render (.text content)).toList = some content := by
      refine quoted?_eq_some_iff.mpr ⟨hchars, fun c hc => ?_⟩
      obtain ⟨hatom, hdouble, hsingle⟩ := h c hc
      have hreturn : c ≠ '\r' := by
        rintro rfl
        exact absurd hatom (by decide)
      have hnewline : c ≠ '\n' := by
        rintro rfl
        exact absurd hatom (by decide)
      simp [isQuotable, hdouble, hsingle, hreturn, hnewline]
    rw [ofText, hquoted, hchars, numberLiteral?_of_quote]
  | symbol name => exact h.2

/-- **What a word spells is readable.** -/
theorem readable_ofText {text : String} (h : Token.IsWord text) : (ofText text).Readable := by
  cases hnumber : numberLiteral? text.toList with
  | some x => simp [ofText, hnumber, Readable]
  | none =>
    cases hquoted : quoted? text.toList with
    | some content =>
      obtain ⟨htext, hquotable⟩ := quoted?_eq_some_iff.mp hquoted
      simp only [ofText, hnumber, hquoted, Readable]
      intro c hc
      have hmem : c ∈ text.toList := by
        rw [htext]
        exact List.mem_cons_of_mem _ (List.mem_append_left _ hc)
      have hc' := hquotable c hc
      simp only [isQuotable, Bool.and_eq_true, bne_iff_ne, ne_eq] at hc'
      exact ⟨h.2 c hmem, hc'.1.1.1, hc'.1.1.2⟩
    | none =>
      by_cases htrue : text = "t"
      · subst htrue
        trivial
      by_cases hfalse : text = "nil"
      · subst hfalse
        trivial
      · -- nothing else takes the text, so its symbol is read as a symbol again
        have hsymbol : ofText text = .symbol text := by
          simp [ofText, hnumber, hquoted, htrue, hfalse]
        rw [hsymbol]
        exact ⟨h, hsymbol⟩

end Atom

/-! ### What is read is readable -/

/-- If the atoms of a tree are words, then its datum is readable. -/
theorem ParseTree.readable_datum {t : ParseTree}
    (h : ∀ text span, ⟨.atom text, span⟩ ∈ t.tokens → Token.IsWord text) : t.datum.Readable := by
  induction t using ParseTree.induction with
  | atom text span => exact .atom span (Atom.readable_ofText (h text span (by simp)))
  | list opening ts closing ih =>
    rw [datum_list, data_eq]
    refine .list _ fun e he => ?_
    obtain ⟨t, ht, rfl⟩ := List.mem_map.mp he
    refine ih t ht fun text span hmem => h text span ?_
    have hall : ⟨.atom text, span⟩ ∈ tokensOfAll ts := by
      rw [tokensOfAll_eq]
      exact List.mem_flatMap.mpr ⟨t, ht, hmem⟩
    exact List.mem_cons_of_mem _ (List.mem_append_left _ hall)

/-- **What is read is readable.** -/
theorem readable_of_readProgram {text : String} {ds : List Datum}
    (h : readProgram text = .ok ds) : ∀ d ∈ ds, d.Readable := by
  have hblank : ¬∀ c ∈ text.toList, isBlank c = true := by
    intro hblank
    rw [readProgram_of_blank hblank] at h
    cases h
  rw [readProgram_of_not_blank hblank] at h
  rcases readAll_cases (Token.scan 0 text.toList) with ⟨trees, htokens, hread⟩ |
    ⟨-, -, span, hread⟩ | ⟨trees, span, rest, -, hread⟩
  · obtain rfl := Except.ok.inj (hread.symm.trans h)
    intro d hd
    obtain ⟨t, ht, rfl⟩ := List.mem_map.mp hd
    refine ParseTree.readable_datum fun word span hmem => ?_
    have hscan : ⟨.atom word, span⟩ ∈ Token.scan 0 text.toList := by
      rw [htokens, ParseTree.tokensOfAll_eq]
      exact List.mem_flatMap.mpr ⟨t, ht, hmem⟩
    exact Token.isWord_of_mem_scan hscan
  · cases hread.symm.trans h
  · cases hread.symm.trans h

/-! ### What is printed is read -/

/-- **A tree spells a datum** at an offset: it is what the printed form of the datum reads
as there. -/
structure ParseTree.Spells (t : ParseTree) (d : Datum) (offset : Nat) : Prop where
  /-- The printed form is scanned as the tokens of the tree. -/
  scan : Token.scan offset d.render.toList = t.tokens
  /-- The tree stands for the datum, apart from spans. -/
  erased : t.datum.eraseSpans = d.eraseSpans
  /-- It covers the whole of the printed form. -/
  span : t.datum.span = ⟨offset, offset + byteLength d.render.toList⟩

namespace Datum

/-- If each of some data is spelled by a tree wherever it is printed, all of them are, one
after the other. -/
theorem exists_trees_of_forall {ds : List Datum}
    (h : ∀ d ∈ ds, ∀ offset, ∃ t : ParseTree, t.Spells d offset) (offset : Nat) :
    ∃ ts : List ParseTree, Token.scan offset (renderAll ds).toList = ParseTree.tokensOfAll ts ∧
      ts.map (fun t => t.datum.eraseSpans) = ds.map eraseSpans := by
  induction ds generalizing offset with
  | nil => exact ⟨[], by simp [renderAll], rfl⟩
  | cons d ds ih =>
    obtain ⟨hd, hds⟩ := List.forall_mem_cons.mp h
    obtain ⟨t, ht⟩ := hd offset
    cases ds with
    | nil =>
      refine ⟨[t], ?_, ?_⟩
      · rw [renderAll, ht.scan, ParseTree.tokensOfAll_cons, ParseTree.tokensOfAll_nil,
          List.append_nil]
      · rw [List.map_singleton, ht.erased, List.map_singleton]
    | cons e ds =>
      obtain ⟨ts, hscan, herased⟩ := ih hds (offset + byteLength d.render.toList + ' '.utf8Size)
      refine ⟨t :: ts, ?_, ?_⟩
      · -- the space ends an atom that `d` may be, and is skipped
        have hchars : (renderAll (d :: e :: ds)).toList =
            d.render.toList ++ ' ' :: (renderAll (e :: ds)).toList := by
          simp [renderAll]
        have hspace : Token.isAtomChar ' ' = false := by decide
        rw [hchars, Token.scan_append _ _ (by simp [hspace]),
          Token.scan_cons_of_isBlank isBlank_space, hscan, ht.scan, ParseTree.tokensOfAll_cons]
      · rw [List.map_cons, ht.erased, herased]
        rfl

/-- **The printed form of a readable datum reads as one tree.** -/
theorem exists_tree_of_readable {d : Datum} (h : d.Readable) (offset : Nat) :
    ∃ t : ParseTree, t.Spells d offset := by
  induction h generalizing offset with
  | @atom a span h =>
    have hword := Atom.isWord_render h
    refine ⟨.atom a.render ⟨offset, offset + byteLength a.render.toList⟩, ?_, ?_, ?_⟩
    · exact Token.scan_word hword offset
    · rw [ParseTree.datum_atom, Atom.ofText_render h]
      rfl
    · rfl
  | @list es span _ ih =>
    obtain ⟨ts, hscan, herased⟩ := exists_trees_of_forall ih (offset + 1)
    have hchars : (render (.list es span)).toList = '(' :: ((renderAll es).toList ++ [')']) := by
      simp [render]
    refine ⟨.list ⟨offset, offset + 1⟩ ts
      ⟨offset + 1 + byteLength (renderAll es).toList,
        offset + 1 + byteLength (renderAll es).toList + 1⟩, ?_, ?_, ?_⟩
    · have hclosing : Token.isAtomChar ')' = false := by decide
      rw [hchars, Token.scan_cons_opening, Token.scan_append _ _ (by simp [hclosing]), hscan,
        Token.scan_cons_closing, Token.scan_nil, ParseTree.tokens_list]
    · rw [ParseTree.datum_list, ParseTree.data_eq, eraseSpans, eraseSpans, eraseAllSpans_eq,
        eraseAllSpans_eq, List.map_map]
      exact congrArg (Datum.list · Span.none) herased
    · have hopening : '('.utf8Size = 1 := rfl
      have hclosing : ')'.utf8Size = 1 := rfl
      rw [hchars, ParseTree.datum_list]
      simp only [Datum.span, Span.merge, byteLength_cons, byteLength_append, byteLength_nil,
        hopening, hclosing, Span.mk.injEq]
      omega

end Datum

/-- **Printing and reading are inverse.** Everything that is read is readable. A readable
datum is printed as a text from which one datum is read, the same one up to spans, and its
span is the whole text. -/
theorem printing_and_reading_inverse :
    (∀ (text : String) (ds : List Datum), readProgram text = .ok ds → ∀ d ∈ ds, d.Readable) ∧
    ∀ d : Datum, d.Readable → ∃ d', readProgram d.render = .ok [d'] ∧
      d'.eraseSpans = d.eraseSpans ∧ d'.span = ⟨0, d.render.utf8ByteSize⟩ := by
  refine ⟨fun text ds h => readable_of_readProgram h, fun d h => ?_⟩
  obtain ⟨t, ht⟩ := Datum.exists_tree_of_readable h 0
  have hblank : ¬∀ c ∈ d.render.toList, isBlank c = true := by
    intro hblank
    exact t.tokens_ne_nil (ht.scan.symm.trans (Token.scan_eq_nil_iff.mpr hblank))
  refine ⟨t.datum, ?_, ht.erased, ?_⟩
  · rw [readProgram_of_not_blank hblank, ht.scan]
    have hread := readAll_tokensOfAll [t]
    rwa [ParseTree.tokensOfAll_cons, ParseTree.tokensOfAll_nil, List.append_nil] at hread
  · rw [ht.span, byteLength_toList, Nat.zero_add]

/-- In `("open -0 nan "" ())` there are a name that opens a quote and does not close it, the
negative zero, the value that is not a number, the empty text and the empty list. -/
theorem half_quoted_name_reads_back :
    ∃ d, readProgram "(\"open -0 nan \"\" ())" = .ok [d] ∧ d.Readable ∧ d.span = ⟨0, 20⟩ ∧
      d.eraseSpans = .list [.symbol "\"open" .none, .number (Double.ofMagnitude true 0) .none,
        .number (Double.ofMagnitude false (Double.infinity + 1)) .none, .atom (.text "") .none,
        .list [] .none] .none := by
  have hname : Token.IsWord "\"open" :=
    ⟨by decide, List.all_eq_true.mp (show "\"open".toList.all Token.isAtomChar = true by decide)⟩
  have hreadable : (Datum.list [.symbol "\"open" .none, .number (Double.ofMagnitude true 0) .none,
      .number (Double.ofMagnitude false (Double.infinity + 1)) .none, .atom (.text "") .none,
      .list [] .none] .none).Readable := by
    refine .list _ ?_
    simp only [List.forall_mem_cons, List.not_mem_nil, false_imp_iff, implies_true, and_true]
    exact ⟨.atom _ ⟨hname, rfl⟩, .atom _ trivial, .atom _ trivial,
      .atom _ (by simp [Atom.Readable]), .list _ (by simp)⟩
  obtain ⟨d, hread, herased, hspan⟩ := printing_and_reading_inverse.2 _ hreadable
  exact ⟨d, hread, printing_and_reading_inverse.1 _ _ hread d List.mem_cons_self, hspan, herased⟩

end SmallLisp
