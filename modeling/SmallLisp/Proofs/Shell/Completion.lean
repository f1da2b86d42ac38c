import Mathlib.Data.String.Basic
import SmallLisp.Proofs.Store.Chain
import SmallLisp.Proofs.Tokens.Layout
import SmallLisp.Session

/-!
# What is offered for completion

An atom that ends at the cursor can be completed to every name that begins with it and is a
keyword or can be looked up, and to nothing else. Candidates are what such names have behind the
atom. Since all of them begin with the same atom, taking it away changes neither their order nor
their number: the candidates are strictly increasing because the names are
(`SmallLisp.pairwise_lt_filterMap_restOfName?`).

The names are gathered by a walk along the frames of their own, apart from the walk of a lookup;
that the two agree is `SmallLisp.Store.mem_namesFrom_iff`. The cursor may stand anywhere between
two characters of a line. What comes behind it plays no part, and neither do the tokens in front
of the atom (`SmallLisp.Token.scan_append_of_getLast?`).
-/

namespace SmallLisp

/-! ### Names in order -/

theorem nodup_eraseDups {α : Type} [BEq α] [LawfulBEq α] (as : List α) : as.eraseDups.Nodup := by
  induction h : as.length using Nat.strong_induction_on generalizing as with
  | _ n ih =>
    subst h
    cases as with
    | nil => exact List.nodup_nil
    | cons a as =>
      rw [List.eraseDups_cons, List.nodup_cons, List.mem_eraseDups]
      refine ⟨by simp, ih _ ?_ _ rfl⟩
      exact Nat.lt_succ_of_le (List.length_filter_le _ as)

namespace Store

variable {names : List String} {name : String}

@[simp]
theorem mem_sortNames : name ∈ sortNames names ↔ name ∈ names := by
  rw [sortNames, List.mem_mergeSort, List.mem_eraseDups]

/-- **Sorted names are strictly increasing**, so each of them is there once. -/
theorem pairwise_lt_sortNames (names : List String) : (sortNames names).Pairwise (· < ·) := by
  have hnodup : (sortNames names).Nodup :=
    (List.mergeSort_perm _ _).nodup_iff.mpr (nodup_eraseDups names)
  have hsorted : (sortNames names).Pairwise (· ≤ ·) := by
    refine (List.pairwise_mergeSort ?_ ?_ _).imp of_decide_eq_true
    · intro a b c hab hbc
      exact decide_eq_true ((of_decide_eq_true hab).trans (of_decide_eq_true hbc))
    · intro a b
      simpa using le_total a b
  exact hsorted.imp₂ (fun _ _ => lt_of_le_of_ne) hnodup

/-- The names that can be seen from a frame are those that a lookup finds. -/
theorem mem_visibleNames_iff {s : Store} {f : FrameId} :
    name ∈ s.visibleNames f ↔ (s.lookup? name f).isSome = true := by
  rw [visibleNames, mem_sortNames, mem_namesFrom_iff]

end Store

theorem mem_completableNames_iff {s : Store} {f : FrameId} {name : String} :
    name ∈ completableNames s f ↔
      (∃ k : Keyword, k.name = name) ∨ (s.lookup? name f).isSome = true := by
  rw [completableNames, Store.mem_sortNames, List.mem_append, Store.mem_namesFrom_iff, or_comm]
  simp [Keyword.mem_all]

/-! ### What is left of a name -/

theorem restOfName?_eq_some_iff {beginning name rest : String} :
    restOfName? beginning.toList name = some rest ↔ name = beginning ++ rest := by
  rw [restOfName?]
  constructor
  · intro h
    split at h
    · next hprefix =>
      obtain ⟨cs, hcs⟩ := List.isPrefixOf_iff_prefix.mp hprefix
      rw [← hcs, List.drop_left, Option.some.injEq] at h
      rw [← String.toList_inj, String.toList_append, ← hcs, ← h, String.toList_ofList]
    · cases h
  · rintro rfl
    have hprefix : beginning.toList.isPrefixOf (beginning ++ rest).toList = true := by
      rw [List.isPrefixOf_iff_prefix, String.toList_append]
      exact List.prefix_append _ _
    rw [if_pos hprefix, String.toList_append, List.drop_left, String.ofList_toList]

/-- Strings that begin alike are in the order of what is left of them. -/
theorem strictMono_append (beginning : String) : StrictMono (beginning ++ ·) := by
  intro a b hab
  rw [String.lt_iff_toList_lt] at hab ⊢
  rw [String.toList_append, String.toList_append]
  exact List.append_left_lt hab

/-- **What is left of increasing names is increasing.** -/
theorem pairwise_lt_filterMap_restOfName? {names : List String} (beginning : String)
    (h : names.Pairwise (· < ·)) :
    (names.filterMap (restOfName? beginning.toList)).Pairwise (· < ·) := by
  rw [List.pairwise_filterMap]
  refine h.imp fun {a b} hab c hc d hd => ?_
  rw [restOfName?_eq_some_iff.mp hc, restOfName?_eq_some_iff.mp hd] at hab
  exact (strictMono_append beginning).lt_iff_lt.mp hab

/-! ### The atom before the cursor -/

/-- **A text ends in an atom**: its last token is the atom, and ends where the text does. -/
def EndsInAtom (text atom : String) : Prop :=
  ∃ tokens span, tokenize text = .ok tokens ∧ tokens.getLast? = some ⟨.atom atom, span⟩ ∧
    span.stop = text.utf8ByteSize

theorem endsInAtom_iff {text atom : String} :
    EndsInAtom text atom ↔ ∃ span,
      (Token.scan 0 text.toList).getLast? = some ⟨.atom atom, span⟩ ∧
        span.stop = byteLength text.toList := by
  rw [byteLength_toList]
  constructor
  · rintro ⟨tokens, span, htokens, hlast, hstop⟩
    by_cases hblank : ∀ c ∈ text.toList, isBlank c = true
    · rw [tokenize_of_blank hblank] at htokens
      cases htokens
    · rw [tokenize_of_not_blank hblank, Except.ok.injEq] at htokens
      exact ⟨span, htokens ▸ hlast, hstop⟩
  · rintro ⟨span, hlast, hstop⟩
    refine ⟨_, span, tokenize_of_not_blank fun hblank => ?_, hlast, hstop⟩
    rw [Token.scan_eq_nil_iff.mpr hblank] at hlast
    cases hlast

/-- Only what stands in front of the cursor is looked at. -/
theorem atomBefore?_eq_some_iff {before after atom : String} :
    atomBefore? (before ++ after) before.utf8ByteSize = some atom ↔ EndsInAtom before atom := by
  have hfront : takeBytes before.utf8ByteSize (before ++ after).toList = before.toList := by
    rw [String.toList_append, ← byteLength_toList, takeBytes_append]
  rw [atomBefore?, hfront, endsInAtom_iff, byteLength_toList]
  constructor
  · intro h
    split at h
    · next text span hlast =>
      split at h
      · next hstop =>
        obtain rfl := Option.some.inj h
        exact ⟨span, hlast, hstop⟩
      · cases h
    · cases h
  · rintro ⟨span, hlast, hstop⟩
    rw [hlast]
    exact if_pos hstop

namespace Token

/-- **An atom at the end of a text goes on with atom characters**, and the tokens in front of it
stay as they are. -/
theorem scan_append_of_getLast? {offset : Nat} {cs w : List Char} {atom : String} {span : Span}
    (hlast : (scan offset cs).getLast? = some ⟨.atom atom, span⟩)
    (hstop : span.stop = offset + byteLength cs) (hw : ∀ c ∈ w, isAtomChar c = true) :
    scan offset (cs ++ w) = (scan offset cs).dropLast ++
      [⟨.atom (atom ++ String.ofList w), ⟨span.start, span.stop + byteLength w⟩⟩] := by
  induction cs using text_induction generalizing offset with
  | nil => simp at hlast
  | blank c cs hc ih =>
    rw [scan_cons_of_isBlank hc] at hlast
    rw [List.cons_append, scan_cons_of_isBlank hc, scan_cons_of_isBlank hc]
    refine ih hlast ?_
    rw [hstop, byteLength_cons, Nat.add_assoc]
  | lexeme v rest hv ih =>
    rw [scan_lexeme hv] at hlast ⊢
    rcases hrest : scan (offset + byteLength v) rest with - | ⟨t, ts⟩
    · -- the lexeme is the last token; it ends where the text does, so nothing is behind it
      rw [hrest, List.getLast?_singleton, Option.some.injEq, Token.mk.injEq] at hlast
      obtain ⟨hkind, rfl⟩ := hlast
      obtain rfl : rest = [] := by
        simp only [byteLength_append] at hstop
        exact byteLength_eq_zero_iff.mp (by omega)
      cases hv with
      | opening | closing => cases hkind
      | word hne hatom =>
        rw [Kind.ofLexeme_of_isAtomChar hatom, Kind.atom.injEq] at hkind
        have hall : ∀ c ∈ v ++ w, isAtomChar c = true := List.forall_mem_append.mpr ⟨hatom, hw⟩
        have hword : Lexeme (v ++ w) [] := .word (by simp [hne]) hall (by simp)
        have hscan := scan_lexeme hword offset
        rw [List.append_nil, scan_nil, Kind.ofLexeme_of_isAtomChar hall, String.ofList_append,
          hkind, byteLength_append, ← Nat.add_assoc] at hscan
        simpa using hscan
    · -- the last token is still to come, so the lexeme has ended
      have hne : rest ≠ [] := by
        rintro rfl
        simp at hrest
      rw [hrest, List.getLast?_cons_cons, ← hrest] at hlast
      have htail := ih hlast (by rw [hstop, byteLength_append, Nat.add_assoc])
      rw [List.append_assoc, scan_lexeme (hv.append_of_ne_nil hne w), htail, hrest,
        List.dropLast_cons_cons, List.cons_append]

end Token

/-- An atom that a text ends in goes on with what is added, as long as that is no blank and no
parenthesis. -/
theorem EndsInAtom.append {text atom added : String} (h : EndsInAtom text atom)
    (hadded : ∀ c ∈ added.toList, Token.isAtomChar c = true) :
    EndsInAtom (text ++ added) (atom ++ added) := by
  obtain ⟨span, hlast, hstop⟩ := endsInAtom_iff.mp h
  have hscan := Token.scan_append_of_getLast? hlast (hstop.trans (Nat.zero_add _).symm) hadded
  rw [endsInAtom_iff, String.toList_append, hscan, List.getLast?_concat, String.ofList_toList,
    byteLength_append, hstop]
  exact ⟨_, rfl, rfl⟩

/-! ### Completion -/

/-- The candidates for an atom, taken from the names in order. -/
theorem completions_of_endsInAtom {before atom : String} (h : EndsInAtom before atom) (s : Store)
    (f : FrameId) (after : String) :
    completions s f (before ++ after) before.utf8ByteSize =
      (completableNames s f).filterMap (restOfName? atom.toList) := by
  rw [completions, atomBefore?_eq_some_iff.mpr h]

theorem completions_of_not_endsInAtom {before : String} (h : ∀ atom, ¬EndsInAtom before atom)
    (s : Store) (f : FrameId) (after : String) :
    completions s f (before ++ after) before.utf8ByteSize = [] := by
  have hnone : atomBefore? (before ++ after) before.utf8ByteSize = none :=
    Option.eq_none_iff_forall_ne_some.mpr fun atom ha => h atom (atomBefore?_eq_some_iff.mp ha)
  rw [completions, hnone]

/-- **Completion offers exactly the names that can be seen.** The names that can be seen from a
frame are those that a lookup finds. With the cursor behind an atom, whatever the line goes on
with, the candidates are the texts that make the atom a keyword or a name that a lookup finds,
in strictly increasing order; and an atom that is completed by a candidate without blanks and
parentheses is the last token again. Anywhere else there are none. The offset that comes with
the candidates is that of the cursor. -/
theorem completion_offers_visible_names (s : Store) (f : FrameId) :
    (∀ name, name ∈ s.visibleNames f ↔ (s.lookup? name f).isSome = true) ∧
    ∀ before after : String,
      let line := before ++ after
      let cursor := before.utf8ByteSize
      (∀ atom, EndsInAtom before atom →
        (∀ rest, rest ∈ completions s f line cursor ↔
          (∃ k : Keyword, k.name = atom ++ rest) ∨ (s.lookup? (atom ++ rest) f).isSome = true) ∧
        (completions s f line cursor).Pairwise (· < ·) ∧
        ∀ rest ∈ completions s f line cursor,
          (∀ c ∈ (atom ++ rest).toList, Token.isAtomChar c = true) →
            EndsInAtom (before ++ rest) (atom ++ rest)) ∧
      ((∀ atom, ¬EndsInAtom before atom) → completions s f line cursor = []) ∧
      ∀ policy depth (sess : Session) frame, sess.store = s → sess.frames.lookup frame = some f →
        sess.step policy depth (.complete frame line cursor) =
          .ok (.ok (.candidates cursor (completions s f line cursor)), sess) := by
  refine ⟨fun name => Store.mem_visibleNames_iff, fun before after => ⟨?_, ?_, ?_⟩⟩
  · intro atom hatom
    rw [completions_of_endsInAtom hatom]
    refine ⟨fun rest => ?_, ?_, fun rest _ hwhole => ?_⟩
    · rw [List.mem_filterMap, ← mem_completableNames_iff]
      simp only [restOfName?_eq_some_iff, exists_eq_right]
    · exact pairwise_lt_filterMap_restOfName? atom (Store.pairwise_lt_sortNames _)
    · rw [String.toList_append, List.forall_mem_append] at hwhole
      exact hatom.append hwhole.2
  · exact fun h => completions_of_not_endsInAtom h s f after
  · intro policy depth sess frame hstore hframe
    rw [Session.step, Session.named, hframe, ← hstore]
    rfl

/-- The cursor stands behind the `l` of `(λ l x)`, in a frame that binds `let*`, inside one that
binds `l`: the keyword is offered once, and the name itself with nothing behind it. -/
theorem completion_of_bound_keyword :
    let n := Span.none
    let s : Store := ⟨#[⟨none, ⟨[("l", .list [] n)]⟩⟩, ⟨some 0, ⟨[("let*", .list [] n)]⟩⟩], 0⟩
    EndsInAtom "(λ l" "l" ∧ "" ∈ completions s 1 "(λ l x)" 5 ∧ "et*" ∈ completions s 1 "(λ l x)" 5 ∧
      (completions s 1 "(λ l x)" 5).Pairwise (· < ·) ∧ EndsInAtom "(λ let*" "let*" := by
  intro n s
  have hatom : EndsInAtom "(λ l" "l" :=
    endsInAtom_iff.mpr ⟨⟨4, 5⟩, by decide +kernel, by decide⟩
  obtain ⟨hoffered, hincreasing, hlast⟩ :=
    ((completion_offers_visible_names s 1).2 "(λ l" " x)").1 "l" hatom
  have hself := (hoffered "").mpr (.inr (by unfold s n; decide +kernel))
  have hkeyword := (hoffered "et*").mpr (.inl ⟨.letStar, by decide⟩)
  have hchars : ∀ c ∈ ("l" ++ "et*").toList, Token.isAtomChar c = true :=
    List.all_eq_true.mp (by decide)
  exact ⟨hatom, hself, hkeyword, hincreasing, hlast "et*" hkeyword hchars⟩

end SmallLisp
