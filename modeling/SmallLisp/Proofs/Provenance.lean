import Mathlib
import SmallLisp.Proofs.Stock.Calls

/-!
# Where spans come from

An interpreter answers with values and errors that say where in the source they come from.
Values keep the spans that they were made with, over any number of calls, and the primitives
are stored with the span `0..0`, which stands for no source at all. Still, every span in an
answer is that of a node of an expression read from one of the texts given so far
(`SmallLisp.spans_come_from_texts`): the spans of these nodes are a stock that covers the
texts.

Such a span is never empty. The span of a token cuts the token out of its text, and the span
from an opening to a closing parenthesis goes from a boundary of characters to a later one
(`SmallLisp.Span.Within`).
-/

namespace SmallLisp

/-! ### Spans inside a text -/

/-- An offset between two characters of a text, or at one of its ends. -/
def IsBoundary (text : String) (n : Nat) : Prop :=
  ∃ before after : List Char, text.toList = before ++ after ∧ byteLength before = n

namespace Span

variable {text : String} {a b : Span}

/-- **A span that is not empty and lies within a text**, with both ends at boundaries of
characters. -/
structure Within (text : String) (span : Span) : Prop where
  start : IsBoundary text span.start
  stop : IsBoundary text span.stop
  lt : span.start < span.stop

/-- A span that covers two such spans is one, too. -/
theorem Within.merge (ha : a.Within text) (hb : b.Within text) : (a.merge b).Within text where
  start := by
    rcases Nat.le_total a.start b.start with h | h
    · simpa [Span.merge, Nat.min_eq_left h] using ha.start
    · simpa [Span.merge, Nat.min_eq_right h] using hb.start
  stop := by
    rcases Nat.le_total a.stop b.stop with h | h
    · simpa [Span.merge, Nat.max_eq_right h] using hb.stop
    · simpa [Span.merge, Nat.max_eq_left h] using ha.stop
  lt := by
    have hlt := ha.lt
    simp only [Span.merge]
    omega

theorem within_of_mem_scan {t : Token} (ht : t ∈ Token.scan 0 text.toList) :
    t.span.Within text := by
  obtain ⟨before, w, after, htext, hne, -, hspan⟩ := Token.exists_cut_of_mem_scan ht
  have hpos : 0 < byteLength w := Nat.pos_of_ne_zero fun h => hne (byteLength_eq_zero_iff.mp h)
  rw [hspan, Nat.zero_add]
  refine ⟨⟨before, w ++ after, ?_, rfl⟩, ⟨before ++ w, after, htext, ?_⟩, ?_⟩
  · rw [htext, List.append_assoc]
  · rw [byteLength_append]
  · exact Nat.lt_add_of_pos_right hpos

/-- Such a span cuts out a piece of the text. -/
theorem Within.exists_cuts (h : a.Within text) : ∃ piece, piece ≠ "" ∧ a.Cuts text piece := by
  obtain ⟨⟨before, rest, htext, hstart⟩, ⟨before', after, htext', hstop⟩, hlt⟩ := h
  -- the text in front of the one end goes on to the text in front of the other
  rcases List.append_eq_append_iff.mp (htext.symm.trans htext') with
    ⟨w, rfl, rfl⟩ | ⟨w, rfl, rfl⟩
  · refine ⟨String.ofList w, ?_, String.ofList before, String.ofList after, ?_, ?_, ?_⟩
    · intro hempty
      obtain rfl : w = [] := by simpa using congrArg String.toList hempty
      rw [List.append_nil] at hstop
      omega
    · rw [← String.ofList_append, ← String.ofList_append, ← htext', String.ofList_toList]
    · rw [utf8ByteSize_ofList, hstart]
    · rw [← String.ofList_append, utf8ByteSize_ofList, hstop]
  · rw [byteLength_append] at hstart
    omega

end Span

/-! ### The nodes of a text -/

/-- **A span comes from a text** if it is that of a node of an expression read from it. -/
def Span.ComesFrom (span : Span) (text : String) : Prop :=
  ∃ ds, readProgram text = .ok ds ∧ ∃ d ∈ ds, ∃ n ∈ d.nodes, n.span = span

/-- All atoms, with the given spans. -/
def Stock.ofSpans (P : Span → Prop) : Stock where
  span := P
  atom _ := True
  number _ := trivial
  boolean _ := trivial

theorem Stock.allows_ofSpans_iff {P : Span → Prop} {n : Datum} :
    (Stock.ofSpans P).Allows n ↔ P n.span := by
  cases n with
  | atom a s => exact and_iff_left trivial
  | list | primitive | closure => exact Iff.rfl

/-- **What comes from a text is within the text.** -/
theorem Span.ComesFrom.within {span : Span} {text : String} (h : span.ComesFrom text) :
    span.Within text := by
  obtain ⟨ds, hread, d, hd, n, hn, rfl⟩ := h
  have hcovers : (Stock.ofSpans (Span.Within text)).Covers text :=
    Stock.covers_of_scan (fun _ _ => Span.Within.merge) (fun _ => Span.within_of_mem_scan)
      fun _ _ _ => trivial
  exact Stock.allows_ofSpans_iff.mp (hcovers ds hread d hd n hn)

/-! ### The spans of an answer -/

/-- The spans of an answer: those of every node of its values, or that of the error. -/
def answerSpans : Except Error (List Datum) → List Span
  | .ok vs => (vs.flatMap Datum.nodes).map Datum.span
  | .error (.eval e) => [e.span]
  | .error (.read _) => []

/-- In an answer that draws from spans there are no others. -/
theorem forall_answerSpans {P : Span → Prop} {r : Except Error (List Datum)}
    (h : Meets (Stock.ofSpans P).AllowsError (fun vs => ∀ v ∈ vs, v.DrawnFrom (.ofSpans P)) r) :
    ∀ span ∈ answerSpans r, P span := by
  intro span hspan
  rcases r with (e | e) | vs
  · cases hspan
  · obtain rfl := List.mem_singleton.mp hspan
    exact h
  · obtain ⟨n, hn, rfl⟩ := List.mem_map.mp hspan
    obtain ⟨v, hv, hn⟩ := List.mem_flatMap.mp hn
    exact Stock.allows_ofSpans_iff.mp (h v hv n hn)

/-- **Every span in an answer comes from a text given so far.** Over any sequence of calls of
one interpreter, the spans of the nodes of a value, and the span of an error of evaluation,
are spans of nodes of expressions read from these texts. So they are not empty, and cut a
piece out of one of the texts, which is the text of the call if it is the first one; and none
of them is the span that primitives are stored with. -/
theorem spans_come_from_texts (policy : FramePolicy) {texts : List String} {s t : Store} {c : Call}
    {r : Except Error (List Datum)} (hs : Reaches policy texts s)
    (h : Answers policy (Interpreter.new .empty).1 s c r t) :
    ∀ span ∈ answerSpans r,
      (∃ text ∈ texts ++ [c.text], span.ComesFrom text ∧
        ∃ piece, piece ≠ "" ∧ span.Cuts text piece) ∧
      (texts = [] → ∃ piece, piece ≠ "" ∧ span.Cuts c.text piece) ∧
      span ≠ Span.none := by
  let P : Span → Prop := fun span => ∃ text ∈ texts ++ [c.text], span.ComesFrom text
  have hcovers : ∀ text ∈ texts ++ [c.text], (Stock.ofSpans P).Covers text := by
    intro text htext ds hread d hd n hn
    exact Stock.allows_ofSpans_iff.mpr ⟨text, htext, ds, hread, d, hd, n, hn, rfl⟩
  intro span hspan
  obtain ⟨text, htext, hfrom⟩ := forall_answerSpans (Answers.meets hs h hcovers) span hspan
  have hcuts := hfrom.within.exists_cuts
  refine ⟨⟨text, htext, hfrom, hcuts⟩, ?_, ?_⟩
  · rintro rfl
    obtain rfl := List.mem_singleton.mp htext
    exact hcuts
  · rintro rfl
    exact Nat.lt_irrefl 0 hfrom.within.lt

/-- `(define f (lambda () x))` and then `(f)`: the name `x` is found to be unbound when the
second text is run, at a place that only the first text has. -/
theorem unbound_name_in_earlier_text :
    let i := (Interpreter.new .empty).1
    let first := "(define f (lambda () x))"
    let unbound : Except Error (List Datum) := .error (.eval (.unbound "x" ⟨21, 22⟩))
    ∃ s t, Reaches .clearFinished [first] s ∧ Answers .clearFinished i s (.runAll "(f)") unbound t ∧
      ∃ text ∈ [first, "(f)"], (⟨21, 22⟩ : Span).ComesFrom text := by
  intro i first unbound
  let f (span : Span) : Datum := .closure 0 [] [.symbol "x" ⟨21, 22⟩] 0 span
  let s₀ := (Interpreter.new .empty).2
  let s : Store := { s₀.set 0 "f" (f ⟨10, 23⟩) with nextClosure := 1 }
  let t : Store := { s with frames := s.frames.push ⟨some 0, .empty⟩ }
  have htokens : Token.scan 0 first.toList = [⟨.opening, ⟨0, 1⟩⟩, ⟨.atom "define", ⟨1, 7⟩⟩,
      ⟨.atom "f", ⟨8, 9⟩⟩, ⟨.opening, ⟨10, 11⟩⟩, ⟨.atom "lambda", ⟨11, 17⟩⟩, ⟨.opening, ⟨18, 19⟩⟩,
      ⟨.closing, ⟨19, 20⟩⟩, ⟨.atom "x", ⟨21, 22⟩⟩, ⟨.closing, ⟨22, 23⟩⟩,
      ⟨.closing, ⟨23, 24⟩⟩] := by
    unfold first
    cbv
  have hread : readProgram first = .ok [.list [.symbol "define" ⟨1, 7⟩, .symbol "f" ⟨8, 9⟩,
      .list [.symbol "lambda" ⟨11, 17⟩, .list [] ⟨18, 20⟩, .symbol "x" ⟨21, 22⟩] ⟨10, 23⟩]
      ⟨0, 24⟩] := by
    rw [readProgram_of_scan htokens]
    cbv
  have hread' : readProgram "(f)" = .ok [.list [.symbol "f" ⟨1, 2⟩] ⟨0, 3⟩] := by cbv
  have hfirst : Answers .clearFinished i s₀ (.runAll first) (.ok [f ⟨10, 23⟩]) s := by
    refine ⟨3, ?_⟩
    rw [Call.answer, i.runAll_of_ok hread]
    unfold i s s₀ f
    cbv
  have hsecond : Answers .clearFinished i s (.runAll "(f)") unbound t := by
    refine ⟨3, ?_⟩
    rw [Call.answer, i.runAll_of_ok hread']
    unfold i unbound t s s₀ f
    cbv
  have hs : Reaches .clearFinished [first] s := .call .new hfirst
  have hspans :=
    spans_come_from_texts .clearFinished hs hsecond ⟨21, 22⟩ (List.mem_singleton.mpr rfl)
  obtain ⟨text, htext, hfrom, -⟩ := hspans.1
  exact ⟨s, t, hs, hsecond, text, htext, hfrom⟩

end SmallLisp
