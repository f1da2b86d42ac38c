import SmallLisp.Proofs.Tokens.Scan
import SmallLisp.Reader

/-!
# How tokens lie in a text

What the tokens of a text are can be said without a scanner: put a space on either side
of every parenthesis and split the text at its blanks
(`SmallLisp.splitBlanks`, `SmallLisp.padParens`). Where they are is said by their spans:
each cuts its token out of the text, they follow one another without overlap, and what
they leave out is blank. The theorem `SmallLisp.tokenize_splits_text` says all of this of
the tokenizer, and that it refuses exactly the texts in which everything is blank.

Offsets count bytes of the UTF-8 encoding. A span is given by the text in front of it,
so that it begins and ends between two characters.
-/

namespace SmallLisp

/-! ### Bytes of a string -/

/-- The bytes of a string are those of its characters. -/
theorem utf8ByteSize_ofList (cs : List Char) : (String.ofList cs).utf8ByteSize = byteLength cs := by
  induction cs with
  | nil => rfl
  | cons c cs ih =>
    have hcons : String.ofList (c :: cs) = String.singleton c ++ String.ofList cs := by
      rw [String.singleton_eq_ofList, ← String.ofList_append, List.cons_append, List.nil_append]
    rw [hcons, String.utf8ByteSize_append, String.utf8ByteSize_singleton, ih, byteLength_cons]

theorem byteLength_toList (text : String) : byteLength text.toList = text.utf8ByteSize := by
  rw [← utf8ByteSize_ofList, String.ofList_toList]

/-- **A span cuts a piece out of a text**: the text in front of the span and the piece
take as many bytes as its two ends say. -/
def Span.Cuts (span : Span) (text piece : String) : Prop :=
  ∃ before after : String, text = before ++ piece ++ after ∧
    span.start = before.utf8ByteSize ∧ span.stop = (before ++ piece).utf8ByteSize

/-! ### Padding and splitting -/

/-- A text with a space on either side of every parenthesis. -/
def padParens (cs : List Char) : List Char :=
  cs.flatMap fun c => if c = '(' ∨ c = ')' then [' ', c, ' '] else [c]

/-- The pieces of a text between its blanks, without the empty ones. -/
def splitBlanks (cs : List Char) : List (List Char) := (cs.splitOnP isBlank).filter (· ≠ [])

theorem splitBlanks_nil : splitBlanks [] = [] := rfl

theorem splitBlanks_blank {c : Char} (h : isBlank c = true) (cs : List Char) :
    splitBlanks (c :: cs) = splitBlanks cs := by
  rw [splitBlanks, List.splitOnP_cons_eq_if_modifyHead, if_pos h, List.filter_cons_of_neg (by simp),
    splitBlanks]

/-- A piece is what stands in front of a blank, or of the end. -/
theorem splitBlanks_append {w cs : List Char} (hne : w ≠ []) (hw : ∀ c ∈ w, isBlank c = false)
    (hcs : ∀ c ∈ cs.head?, isBlank c = true) : splitBlanks (w ++ cs) = w :: splitBlanks cs := by
  cases cs with
  | nil =>
    rw [List.append_nil, splitBlanks, List.splitOnP_eq_singleton hw,
      List.filter_cons_of_pos (by simpa using hne)]
    rfl
  | cons c cs =>
    have hc : isBlank c = true := hcs c rfl
    rw [splitBlanks_blank hc, splitBlanks, List.splitOnP_append_cons_of_forall_mem hw c hc,
      List.filter_cons_of_pos (by simpa using hne), splitBlanks]

theorem splitBlanks_between_spaces {c : Char} (hc : isBlank c = false) (cs : List Char) :
    splitBlanks (' ' :: c :: ' ' :: cs) = [c] :: splitBlanks cs := by
  rw [splitBlanks_blank isBlank_space, ← List.singleton_append,
    splitBlanks_append (by simp) (by simpa using hc) (by simp), splitBlanks_blank isBlank_space]

theorem padParens_append (cs ds : List Char) :
    padParens (cs ++ ds) = padParens cs ++ padParens ds :=
  List.flatMap_append

theorem padParens_of_isBlank {c : Char} (h : isBlank c = true) (cs : List Char) :
    padParens (c :: cs) = c :: padParens cs := by
  have hopening : c ≠ '(' := by
    rintro rfl
    simp at h
  have hclosing : c ≠ ')' := by
    rintro rfl
    simp at h
  simp [padParens, hopening, hclosing]

theorem padParens_of_isAtomChar {w : List Char} (hw : ∀ c ∈ w, Token.isAtomChar c = true) :
    padParens w = w := by
  induction w with
  | nil => rfl
  | cons c w ih =>
    obtain ⟨hc, hw⟩ := List.forall_mem_cons.mp hw
    obtain ⟨-, hopening, hclosing⟩ := Token.isAtomChar_iff.mp hc
    rw [← List.singleton_append, padParens_append, ih hw]
    simp [padParens, hopening, hclosing]

/-- What ends an atom is a blank or gets one in front of it. -/
theorem head?_padParens {cs : List Char} (h : ∀ c ∈ cs.head?, Token.isAtomChar c = false) :
    ∀ c ∈ (padParens cs).head?, isBlank c = true := by
  cases cs with
  | nil => simp [padParens]
  | cons c cs =>
    intro d hd
    by_cases hparen : c = '(' ∨ c = ')'
    · simp only [padParens, List.flatMap_cons, if_pos hparen, List.cons_append, List.head?_cons,
        Option.mem_some_iff] at hd
      subst hd
      exact isBlank_space
    · simp only [padParens, List.flatMap_cons, if_neg hparen, List.cons_append, List.head?_cons,
        Option.mem_some_iff] at hd
      subst hd
      have hc := h c rfl
      rw [← Bool.not_eq_true, Token.isAtomChar_iff] at hc
      simpa [not_or.mp hparen] using hc

namespace Token

/-- **The tokens of a text are the pieces of the padded text.** -/
theorem map_kind_scan (offset : Nat) (cs : List Char) :
    (scan offset cs).map kind = (splitBlanks (padParens cs)).map Kind.ofLexeme := by
  induction cs using text_induction generalizing offset with
  | nil => simp [padParens, splitBlanks_nil]
  | blank c cs hc ih =>
    rw [scan_cons_of_isBlank hc, padParens_of_isBlank hc, splitBlanks_blank hc, ih]
  | lexeme w rest hw ih =>
    have hpieces : splitBlanks (padParens (w ++ rest)) = w :: splitBlanks (padParens rest) := by
      rw [padParens_append]
      cases hw with
      | opening => exact splitBlanks_between_spaces isBlank_opening (padParens rest)
      | closing => exact splitBlanks_between_spaces isBlank_closing (padParens rest)
      | word hne hatom hrest =>
        rw [padParens_of_isAtomChar hatom]
        exact splitBlanks_append hne (fun c hc => (isAtomChar_iff.mp (hatom c hc)).1)
          (head?_padParens hrest)
    rw [scan_lexeme hw, List.map_cons, ih, hpieces, List.map_cons]

/-! ### Spans -/

/-- A token is nonempty, and its span cuts it out of the text. -/
theorem exists_cut_of_mem_scan {offset : Nat} {cs : List Char} {t : Token}
    (ht : t ∈ scan offset cs) :
    ∃ before w after : List Char, cs = before ++ w ++ after ∧ w ≠ [] ∧
      t.kind.text = String.ofList w ∧
      t.span = ⟨offset + byteLength before, offset + byteLength before + byteLength w⟩ := by
  induction cs using text_induction generalizing offset with
  | nil => simp at ht
  | blank c cs hc ih =>
    rw [scan_cons_of_isBlank hc] at ht
    obtain ⟨before, w, after, rfl, hne, htext, hspan⟩ := ih ht
    refine ⟨c :: before, w, after, rfl, hne, htext, ?_⟩
    rw [hspan, byteLength_cons, Nat.add_assoc]
  | lexeme w rest hw ih =>
    rw [scan_lexeme hw] at ht
    rcases List.mem_cons.mp ht with rfl | ht
    · exact ⟨[], w, rest, rfl, hw.ne_nil, Kind.text_ofLexeme w, rfl⟩
    · obtain ⟨before, v, after, rfl, hne, htext, hspan⟩ := ih ht
      refine ⟨w ++ before, v, after, by simp, hne, htext, ?_⟩
      rw [hspan, byteLength_append, Nat.add_assoc]

theorem le_start_of_mem_scan {offset : Nat} {cs : List Char} {t : Token}
    (ht : t ∈ scan offset cs) : offset ≤ t.span.start := by
  obtain ⟨before, w, after, -, -, -, hspan⟩ := exists_cut_of_mem_scan ht
  rw [hspan]
  exact Nat.le_add_right _ _

/-- **The spans follow one another** and do not overlap. -/
theorem pairwise_scan (offset : Nat) (cs : List Char) :
    (scan offset cs).Pairwise fun s t => s.span.stop ≤ t.span.start := by
  induction cs using text_induction generalizing offset with
  | nil => simp
  | blank c cs hc ih =>
    rw [scan_cons_of_isBlank hc]
    exact ih _
  | lexeme w rest hw ih =>
    rw [scan_lexeme hw]
    exact List.pairwise_cons.mpr ⟨fun t ht => le_start_of_mem_scan ht, ih _⟩

/-- **Every character is blank or lies in the span of a token.** -/
theorem isBlank_or_covered {offset : Nat} {cs before after : List Char} {c : Char}
    (h : cs = before ++ c :: after) :
    isBlank c = true ∨ ∃ t ∈ scan offset cs,
      t.span.start ≤ offset + byteLength before ∧ offset + byteLength before < t.span.stop := by
  induction cs using text_induction generalizing offset before with
  | nil => simp at h
  | blank d cs hd ih =>
    cases before with
    | nil =>
      obtain ⟨rfl, -⟩ := List.cons.inj h
      exact .inl hd
    | cons b before =>
      obtain ⟨rfl, hcs⟩ := List.cons.inj h
      rw [scan_cons_of_isBlank hd, byteLength_cons, ← Nat.add_assoc]
      exact ih hcs
  | lexeme w rest hw ih =>
    rw [scan_lexeme hw]
    rcases List.append_eq_append_iff.mp h with ⟨as, rfl, hrest⟩ | ⟨bs, rfl, hbs⟩
    · -- the character stands behind the first token
      rcases @ih (offset + byteLength w) as hrest with hblank | ⟨t, ht, hspan⟩
      · exact .inl hblank
      · rw [byteLength_append, ← Nat.add_assoc]
        exact .inr ⟨t, List.mem_cons_of_mem _ ht, hspan⟩
    · cases bs with
      | nil =>
        -- it is the first one behind that token
        rw [List.append_nil]
        rcases @ih (offset + byteLength before) [] hbs.symm with hblank | ⟨t, ht, hspan⟩
        · exact .inl hblank
        · exact .inr ⟨t, List.mem_cons_of_mem _ ht, hspan⟩
      | cons b bs =>
        -- it is one of the characters of the first token
        have hinside : byteLength before < byteLength (before ++ b :: bs) := by
          have := Char.utf8Size_pos b
          rw [byteLength_append, byteLength_cons]
          omega
        exact .inr ⟨_, List.mem_cons_self, Nat.le_add_right _ _, Nat.add_lt_add_left hinside _⟩

end Token

/-! ### The tokenizer -/

theorem tokenize_of_blank {text : String} (h : ∀ c ∈ text.toList, isBlank c = true) :
    tokenize text = .error (.empty ⟨0, text.utf8ByteSize⟩) := by
  rw [tokenize, if_pos (List.all_eq_true.mpr h), byteLength_toList]

theorem tokenize_of_not_blank {text : String} (h : ¬∀ c ∈ text.toList, isBlank c = true) :
    tokenize text = .ok (Token.scan 0 text.toList) := by
  rw [tokenize, if_neg fun hall => h (List.all_eq_true.mp hall)]

theorem readProgram_of_blank {text : String} (h : ∀ c ∈ text.toList, isBlank c = true) :
    readProgram text = .error (.empty ⟨0, text.utf8ByteSize⟩) := by
  rw [readProgram, tokenize_of_blank h]
  rfl

theorem readProgram_of_not_blank {text : String} (h : ¬∀ c ∈ text.toList, isBlank c = true) :
    readProgram text = readAll (Token.scan 0 text.toList) := by
  rw [readProgram, tokenize_of_not_blank h]
  rfl

/-- A text that is read is not blank. -/
theorem not_blank_of_readProgram {text : String} {ds : List Datum}
    (h : readProgram text = .ok ds) : ¬∀ c ∈ text.toList, isBlank c = true := by
  intro hblank
  rw [readProgram_of_blank hblank] at h
  cases h

theorem readProgram_eq_ok_iff {text : String} {ds : List Datum} :
    readProgram text = .ok ds ↔
      (¬∀ c ∈ text.toList, isBlank c = true) ∧ readAll (Token.scan 0 text.toList) = .ok ds := by
  constructor
  · intro h
    have hblank := not_blank_of_readProgram h
    exact ⟨hblank, (readProgram_of_not_blank hblank).symm.trans h⟩
  · rintro ⟨hblank, h⟩
    exact (readProgram_of_not_blank hblank).trans h

/-- A text that has tokens is read from them. -/
theorem readProgram_of_scan {text : String} {t : Token} {ts : List Token}
    (h : Token.scan 0 text.toList = t :: ts) : readProgram text = readAll (t :: ts) := by
  have hblank : ¬∀ c ∈ text.toList, isBlank c = true := by
    intro hall
    have hnil : Token.scan 0 text.toList = [] := Token.scan_eq_nil_iff.mpr hall
    rw [h] at hnil
    exact List.cons_ne_nil t ts hnil
  rw [readProgram_of_not_blank hblank, h]

/-- The span of a token cuts its text out of the whole. -/
theorem cuts_of_mem_scan {text : String} {t : Token} (ht : t ∈ Token.scan 0 text.toList) :
    t.span.start < t.span.stop ∧ t.span.Cuts text t.kind.text := by
  obtain ⟨before, w, after, htext, hne, hw, hspan⟩ := Token.exists_cut_of_mem_scan ht
  have hpos : 0 < byteLength w := Nat.pos_of_ne_zero fun h => hne (byteLength_eq_zero_iff.mp h)
  rw [hspan, hw, Nat.zero_add]
  refine ⟨Nat.lt_add_of_pos_right hpos, String.ofList before, String.ofList after, ?_, ?_, ?_⟩
  · rw [← String.ofList_append, ← String.ofList_append, ← htext, String.ofList_toList]
  · exact (utf8ByteSize_ofList before).symm
  · rw [← String.ofList_append, utf8ByteSize_ofList, byteLength_append]

/-- **The tokenizer splits a text at its blanks and around its parentheses.** It refuses
exactly the texts in which everything is blank, with the span of the whole text. Of any
other text it gives at least one token. The tokens are the pieces of the padded text
between its blanks; each has a nonempty span that cuts it out of the text; the spans
follow one another without overlap; and every character outside of them is blank. -/
theorem tokenize_splits_text (text : String) :
    (∀ e, tokenize text = .error e ↔
      (∀ c ∈ text.toList, isBlank c = true) ∧ e = .empty ⟨0, text.utf8ByteSize⟩) ∧
    ((¬∀ c ∈ text.toList, isBlank c = true) → ∃ tokens, tokenize text = .ok tokens ∧
      tokens ≠ [] ∧
      tokens.map Token.kind = (splitBlanks (padParens text.toList)).map Token.Kind.ofLexeme ∧
      (∀ t ∈ tokens, t.span.start < t.span.stop ∧ t.span.Cuts text t.kind.text) ∧
      tokens.Pairwise (fun s t => s.span.stop ≤ t.span.start) ∧
      ∀ before c after, text = before ++ String.singleton c ++ after →
        isBlank c = true ∨ ∃ t ∈ tokens, t.span.start ≤ before.utf8ByteSize ∧
          before.utf8ByteSize < t.span.stop) := by
  constructor
  · intro e
    by_cases h : ∀ c ∈ text.toList, isBlank c = true
    · rw [tokenize_of_blank h, Except.error.injEq]
      exact ⟨fun he => ⟨h, he.symm⟩, fun he => he.2.symm⟩
    · rw [tokenize_of_not_blank h]
      refine ⟨fun he => ?_, fun he => absurd he.1 h⟩
      cases he
  · intro h
    refine ⟨Token.scan 0 text.toList, tokenize_of_not_blank h,
      fun hnil => h (Token.scan_eq_nil_iff.mp hnil), Token.map_kind_scan 0 _,
      fun t ht => cuts_of_mem_scan ht, Token.pairwise_scan 0 _, ?_⟩
    intro before c after htext
    have hchars : text.toList = before.toList ++ c :: after.toList := by simp [htext]
    have hcover := @Token.isBlank_or_covered 0 _ _ _ _ hchars
    rwa [byteLength_toList, Nat.zero_add] at hcover

/-- A text with blanks of two and of three bytes, and parentheses that touch an atom. -/
theorem tokenize_splits_wide_blanks :
    ∃ tokens, tokenize "\u00A0(λ)\u3000" = .ok tokens ∧
      tokens.map Token.kind = [.opening, .atom "λ", .closing] := by
  have hopening : ¬∀ c ∈ "\u00A0(λ)\u3000".toList, isBlank c = true := by
    intro hblank
    simpa using hblank '(' (by simp)
  obtain ⟨tokens, hok, -, hkinds, -⟩ := (tokenize_splits_text "\u00A0(λ)\u3000").2 hopening
  refine ⟨tokens, hok, hkinds.trans ?_⟩
  decide

end SmallLisp
