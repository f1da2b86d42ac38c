import Mathlib.Data.List.TakeWhile
import SmallLisp.Proofs.Grammar.Depth

/-!
# The scanner, lexeme by lexeme

A text is nothing, or begins with a blank, or begins with a lexeme: a parenthesis, or a
run of atom characters that goes on as far as it can (`SmallLisp.Token.Lexeme`). Every
text is built up like this (`SmallLisp.Token.text_induction`), and the scanner has one
equation for each of the three (`SmallLisp.Token.scan_lexeme` for the last). So what is
said about scanning is proved by induction on the text, and the offset of the first
character is along for the ride.

* `SmallLisp.Token.scan_append` – two texts are scanned one after the other, if the
  second does not go on with an atom of the first;
* `SmallLisp.Token.scan_append_of_closing` – the tokens up to a closing parenthesis are
  the same, whatever is added at the end of the text;
* `SmallLisp.Token.scan_word` and `SmallLisp.Token.isWord_of_mem_scan` – a word is scanned as
  one atom, and atoms are words;
* `SmallLisp.Token.deficit_scan` and `SmallLisp.Token.unmatched_scan` – the parentheses
  of a text are those of its tokens.
-/

namespace SmallLisp

namespace Token

/-! ### Lexemes -/

/-- The kind of token that a lexeme is. -/
def Kind.ofLexeme : List Char → Kind
  | ['('] => .opening
  | [')'] => .closing
  | w => .atom (String.ofList w)

/-- **A lexeme at the front of a text**, with the rest of it: a parenthesis, or a run of
atom characters that the rest does not go on with. -/
inductive Lexeme : List Char → List Char → Prop
  | opening (rest : List Char) : Lexeme ['('] rest
  | closing (rest : List Char) : Lexeme [')'] rest
  | word {w rest : List Char} (hne : w ≠ []) (hw : ∀ c ∈ w, isAtomChar c = true)
      (hrest : ∀ c ∈ rest.head?, isAtomChar c = false) : Lexeme w rest

theorem isAtomChar_iff {c : Char} :
    isAtomChar c = true ↔ isBlank c = false ∧ c ≠ '(' ∧ c ≠ ')' := by
  simp [isAtomChar, and_assoc]

theorem Kind.ofLexeme_of_isAtomChar {w : List Char} (hw : ∀ c ∈ w, isAtomChar c = true) :
    ofLexeme w = .atom (String.ofList w) := by
  match w with
  | [] => rfl
  | [c] =>
    obtain ⟨-, hopening, hclosing⟩ := isAtomChar_iff.mp (hw c List.mem_cons_self)
    simp [ofLexeme, hopening, hclosing]
  | _ :: _ :: _ => simp [ofLexeme]

/-- A lexeme is the text of its kind of token. -/
@[simp]
theorem Kind.text_ofLexeme (w : List Char) : (ofLexeme w).text = String.ofList w := by
  unfold ofLexeme
  split <;> rfl

namespace Lexeme

variable {w rest : List Char}

theorem ne_nil (h : Lexeme w rest) : w ≠ [] := by
  cases h with
  | opening | closing => simp
  | word hne => exact hne

/-- A lexeme stays one when something is added that does not go on with it. -/
theorem append (h : Lexeme w rest) {more : List Char}
    (hmore : ∀ c ∈ more.head?, isAtomChar c = false) : Lexeme w (rest ++ more) := by
  cases h with
  | opening => exact .opening _
  | closing => exact .closing _
  | word hne hw hrest =>
    refine .word hne hw ?_
    cases rest with
    | nil => exact hmore
    | cons c rest => exact hrest

/-- A lexeme that something follows has ended. -/
theorem append_of_ne_nil (h : Lexeme w rest) (hne : rest ≠ []) (more : List Char) :
    Lexeme w (rest ++ more) := by
  cases h with
  | opening => exact .opening _
  | closing => exact .closing _
  | word hw hatom hrest =>
    refine .word hw hatom ?_
    rw [List.head?_append_of_ne_nil _ hne]
    exact hrest

end Lexeme

/-- **Texts are built up from blanks and lexemes.** -/
theorem text_induction {motive : List Char → Prop} (nil : motive [])
    (blank : ∀ c cs, isBlank c = true → motive cs → motive (c :: cs))
    (lexeme : ∀ w rest, Lexeme w rest → motive rest → motive (w ++ rest))
    (cs : List Char) : motive cs := by
  induction hn : cs.length using Nat.strong_induction_on generalizing cs with
  | _ n ih =>
    subst hn
    cases cs with
    | nil => exact nil
    | cons c cs =>
      have hcs : motive cs := ih _ (Nat.lt_succ_self _) cs rfl
      by_cases hblank : isBlank c = true
      · exact blank c cs hblank hcs
      by_cases hopening : c = '('
      · subst hopening
        exact lexeme ['('] cs (.opening cs) hcs
      by_cases hclosing : c = ')'
      · subst hclosing
        exact lexeme [')'] cs (.closing cs) hcs
      -- the longest run of atom characters is the lexeme
      have hc : isAtomChar c = true := by
        rw [isAtomChar_iff]
        exact ⟨by simpa using hblank, hopening, hclosing⟩
      have hsplit : c :: cs = (c :: cs.takeWhile isAtomChar) ++ cs.dropWhile isAtomChar := by
        rw [List.cons_append, List.takeWhile_append_dropWhile]
      have hlength : (cs.dropWhile isAtomChar).length < (c :: cs).length := by
        have := (cs.dropWhile_sublist isAtomChar).length_le
        rw [List.length_cons]
        omega
      rw [hsplit]
      refine lexeme _ _ (.word (by simp) ?_ ?_) (ih _ hlength _ rfl)
      · refine List.forall_mem_cons.mpr ⟨hc, fun d hd => ?_⟩
        exact List.mem_takeWhile_imp hd
      · intro d hd
        have := List.head?_dropWhile_not isAtomChar cs
        rw [Option.mem_def.mp hd] at this
        simpa using this

/-! ### The equations of the scanner -/

/-- **The scanner takes a lexeme as a token**, and goes on behind it. -/
theorem scan_lexeme {w rest : List Char} (h : Lexeme w rest) (offset : Nat) :
    scan offset (w ++ rest) =
      ⟨.ofLexeme w, ⟨offset, offset + byteLength w⟩⟩ :: scan (offset + byteLength w) rest := by
  cases h with
  | opening => exact scan_cons_opening offset rest
  | closing => exact scan_cons_closing offset rest
  | word hne hw hrest =>
    obtain ⟨c, cs, rfl⟩ := List.exists_cons_of_ne_nil hne
    obtain ⟨hc, hcs⟩ := List.forall_mem_cons.mp hw
    have htake : rest.takeWhile isAtomChar = [] := by
      cases rest with
      | nil => rfl
      | cons d rest => rw [List.takeWhile_cons_of_neg (by simpa using hrest d)]
    have hdrop : rest.dropWhile isAtomChar = rest := by
      cases rest with
      | nil => rfl
      | cons d rest => rw [List.dropWhile_cons_of_neg (by simpa using hrest d)]
    rw [List.cons_append, scan_cons_of_isAtomChar hc, List.takeWhile_append_of_pos hcs,
      List.dropWhile_append_of_pos hcs, htake, hdrop, List.append_nil,
      Kind.ofLexeme_of_isAtomChar hw]

/-- **Texts are scanned one after the other**, if the second does not go on with an atom
that the first ends with. -/
theorem scan_append (offset : Nat) (cs : List Char) {ds : List Char}
    (h : ∀ c ∈ ds.head?, isAtomChar c = false) :
    scan offset (cs ++ ds) = scan offset cs ++ scan (offset + byteLength cs) ds := by
  induction cs using text_induction generalizing offset with
  | nil => simp
  | blank c cs hc ih =>
    rw [List.cons_append, scan_cons_of_isBlank hc, scan_cons_of_isBlank hc, ih, byteLength_cons,
      Nat.add_assoc]
  | lexeme w rest hw ih =>
    rw [List.append_assoc, scan_lexeme (hw.append h), scan_lexeme hw, ih, byteLength_append,
      Nat.add_assoc, List.cons_append]

/-- **What is added to a text leaves the tokens up to a closing parenthesis as they
are.** -/
theorem scan_append_of_closing {offset : Nat} {cs : List Char} {before after : List Token}
    {span : Span} (h : scan offset cs = before ++ ⟨.closing, span⟩ :: after) (ds : List Char) :
    ∃ after', scan offset (cs ++ ds) = before ++ ⟨.closing, span⟩ :: after' := by
  induction cs using text_induction generalizing offset before with
  | nil => simp at h
  | blank c cs hc ih =>
    rw [scan_cons_of_isBlank hc] at h
    rw [List.cons_append, scan_cons_of_isBlank hc]
    exact ih h
  | lexeme w rest hw ih =>
    rw [scan_lexeme hw] at h
    cases before with
    | nil =>
      obtain ⟨hfirst, -⟩ := List.cons.inj h
      cases hw with
      | opening => cases hfirst
      | closing =>
        rw [List.append_assoc, scan_lexeme (.closing (rest ++ ds)), hfirst]
        exact ⟨_, rfl⟩
      | word _ hatom =>
        rw [Kind.ofLexeme_of_isAtomChar hatom] at hfirst
        cases hfirst
    | cons t before =>
      obtain ⟨rfl, htail⟩ := List.cons.inj h
      -- the closing parenthesis is yet to come, so the lexeme has ended
      have hne : rest ≠ [] := by
        rintro rfl
        simp at htail
      obtain ⟨after', hafter⟩ := ih htail
      rw [List.append_assoc, scan_lexeme (hw.append_of_ne_nil hne ds), hafter]
      exact ⟨after', rfl⟩

/-! ### Words -/

/-- **A word**: a nonempty text without blanks and parentheses. -/
def IsWord (text : String) : Prop := text ≠ "" ∧ ∀ c ∈ text.toList, isAtomChar c = true

/-- A word is scanned as one atom. -/
theorem scan_word {text : String} (h : IsWord text) (offset : Nat) :
    scan offset text.toList = [⟨.atom text, ⟨offset, offset + byteLength text.toList⟩⟩] := by
  have hne : text.toList ≠ [] := fun hnil => h.1 (String.toList_eq_nil_iff.mp hnil)
  have hword : Lexeme text.toList [] := .word hne h.2 (by simp)
  have hscan := scan_lexeme hword offset
  rwa [List.append_nil, scan_nil, Kind.ofLexeme_of_isAtomChar h.2, String.ofList_toList] at hscan

/-- Every atom that is scanned is a word. -/
theorem isWord_of_mem_scan {offset : Nat} {cs : List Char} {text : String} {span : Span}
    (h : ⟨.atom text, span⟩ ∈ scan offset cs) : IsWord text := by
  induction cs using text_induction generalizing offset with
  | nil => simp at h
  | blank c cs hc ih =>
    rw [scan_cons_of_isBlank hc] at h
    exact ih h
  | lexeme w rest hw ih =>
    rw [scan_lexeme hw] at h
    rcases List.mem_cons.mp h with hfirst | h
    · cases hw with
      | opening | closing => simp [Kind.ofLexeme] at hfirst
      | word hne hatom =>
        rw [Kind.ofLexeme_of_isAtomChar hatom, Token.mk.injEq, Kind.atom.injEq] at hfirst
        obtain ⟨rfl, -⟩ := hfirst
        exact ⟨by simpa using hne, by simpa using hatom⟩
    · exact ih h

/-! ### The parentheses of a text -/

/-- The characters of a text one by one, as kinds of token. -/
def kindsOfChars (cs : List Char) : List Kind := cs.map fun c => .ofLexeme [c]

@[simp]
theorem kindsOfChars_nil : kindsOfChars [] = [] := rfl

@[simp]
theorem kindsOfChars_cons (c : Char) (cs : List Char) :
    kindsOfChars (c :: cs) = .ofLexeme [c] :: kindsOfChars cs := rfl

@[simp]
theorem kindsOfChars_append (cs ds : List Char) :
    kindsOfChars (cs ++ ds) = kindsOfChars cs ++ kindsOfChars ds :=
  List.map_append

theorem Kind.ofLexeme_singleton {c : Char} (hopening : c ≠ '(') (hclosing : c ≠ ')') :
    ofLexeme [c] = .atom (String.ofList [c]) := by
  simp [ofLexeme, hopening, hclosing]

theorem Kind.ofLexeme_of_isBlank {c : Char} (h : isBlank c = true) :
    ofLexeme [c] = .atom (String.ofList [c]) := by
  refine ofLexeme_singleton ?_ ?_
  · rintro rfl
    simp at h
  · rintro rfl
    simp at h

/-- Atom characters are no parentheses. -/
theorem balanced_of_isAtomChar {w : List Char} (hw : ∀ c ∈ w, isAtomChar c = true) :
    Kind.deficit (kindsOfChars w) = 0 ∧ Kind.unmatched (kindsOfChars w) = 0 := by
  induction w with
  | nil => exact ⟨rfl, rfl⟩
  | cons c w ih =>
    obtain ⟨hc, hw⟩ := List.forall_mem_cons.mp hw
    obtain ⟨-, hopening, hclosing⟩ := isAtomChar_iff.mp hc
    rw [kindsOfChars_cons, Kind.ofLexeme_singleton hopening hclosing, Kind.deficit_atom,
      Kind.unmatched_atom]
    exact ih hw

/-- **The parentheses of a text are those of its tokens**: as many of them match
nothing. -/
theorem deficit_scan (offset : Nat) (cs : List Char) :
    Kind.deficit ((scan offset cs).map kind) = Kind.deficit (kindsOfChars cs) := by
  induction cs using text_induction generalizing offset with
  | nil => simp
  | blank c cs hc ih =>
    rw [scan_cons_of_isBlank hc, kindsOfChars_cons, Kind.ofLexeme_of_isBlank hc,
      Kind.deficit_atom, ih]
  | lexeme w rest hw ih =>
    rw [scan_lexeme hw, List.map_cons, kindsOfChars_append]
    cases hw with
    | opening => simp [Kind.ofLexeme, ih]
    | closing => simp [Kind.ofLexeme, ih]
    | word _ hatom =>
      obtain ⟨hd, hu⟩ := balanced_of_isAtomChar hatom
      rw [Kind.deficit_append_of_balanced hd hu, Kind.ofLexeme_of_isAtomChar hatom,
        Kind.deficit_atom, ih]

theorem unmatched_scan (offset : Nat) (cs : List Char) :
    Kind.unmatched ((scan offset cs).map kind) = Kind.unmatched (kindsOfChars cs) := by
  induction cs using text_induction generalizing offset with
  | nil => simp
  | blank c cs hc ih =>
    rw [scan_cons_of_isBlank hc, kindsOfChars_cons, Kind.ofLexeme_of_isBlank hc,
      Kind.unmatched_atom, ih]
  | lexeme w rest hw ih =>
    rw [scan_lexeme hw, List.map_cons, kindsOfChars_append]
    cases hw with
    | opening => simp [Kind.ofLexeme, Kind.unmatched_opening, ih, deficit_scan]
    | closing => simp [Kind.ofLexeme, ih]
    | word _ hatom =>
      obtain ⟨-, hu⟩ := balanced_of_isAtomChar hatom
      rw [Kind.unmatched_append_of_balanced hu, Kind.ofLexeme_of_isAtomChar hatom,
        Kind.unmatched_atom, ih]

end Token

end SmallLisp
