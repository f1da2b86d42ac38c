import SmallLisp.Proofs.Grammar.Reader
import SmallLisp.Proofs.Session.Basic
import SmallLisp.Proofs.Stock.Eval
import SmallLisp.Proofs.Tokens.Layout

/-!
# Calls of one interpreter

A program talks to an interpreter by calls (`SmallLisp.Call`): it gives a text, and has the
first expression of it evaluated, or every one. The stores that a new interpreter can come to
in this way are those of `SmallLisp.Reaches`, which keeps the texts that have been given so
far.

A stock covers a text if the data read from it are drawn from the stock. If it covers all the
texts of the calls, it is what everything is drawn from: the values in every store that is
reached (`SmallLisp.Reaches.holds`), and the answers (`SmallLisp.Answers.meets`). One stock
does for a whole sequence of calls, and what is asked of it is a condition on tokens
(`SmallLisp.Stock.covers_of_scan`).
-/

namespace SmallLisp

/-! ### Calls -/

/-- **A call of an interpreter**, with the text that is given. -/
inductive Call where
  /-- The first expression of the text is to be evaluated. -/
  | run (text : String)
  /-- Every expression of the text is to be evaluated. -/
  | runAll (text : String)

namespace Call

/-- The text of a call. -/
def text : Call → String
  | run text => text
  | runAll text => text

/-- What a call comes to: the values in order, which is one value if only the first expression
is evaluated. -/
def answer (policy : FramePolicy) (depth : Nat) (i : Interpreter) :
    Call → Action Error (List Datum)
  | run text => do
    let v ← i.run policy depth text
    return [v]
  | runAll text => i.runAll policy depth text

end Call

/-- **An interpreter answers a call**, and leaves the store `t`. -/
def Answers (policy : FramePolicy) (i : Interpreter) (s : Store) (c : Call)
    (r : Except Error (List Datum)) (t : Store) : Prop :=
  ∃ depth, c.answer policy depth i s = some (r, t)

/-- **The stores that a new interpreter reaches by calls**, with the texts of these calls in
order. A call that fails leaves a store as well. -/
inductive Reaches (policy : FramePolicy) : List String → Store → Prop
  | new : Reaches policy [] (Interpreter.new .empty).2
  | call {texts : List String} {s t : Store} {c : Call} {r : Except Error (List Datum)}
    (hs : Reaches policy texts s) (h : Answers policy (Interpreter.new .empty).1 s c r t) :
    Reaches policy (texts ++ [c.text]) t

/-! ### Stocks that cover texts -/

namespace Stock

variable {m : Stock} {text : String}

/-- **A stock covers a text** if the data read from the text are drawn from it. -/
def Covers (m : Stock) (text : String) : Prop :=
  ∀ ds, readProgram text = .ok ds → ∀ d ∈ ds, d.DrawnFrom m

/-- An error of evaluation is at a span of the stock. -/
def AllowsError (m : Stock) : Error → Prop
  | .read _ => True
  | .eval e => m.span e.span

/-- A tree whose tokens belong to the stock stands for a datum drawn from it, if the stock has
the spans from an opening to a closing parenthesis, too. -/
theorem drawnFrom_datum (hmerge : ∀ a b, m.span a → m.span b → m.span (a.merge b)) {t : ParseTree}
    (hspan : ∀ token ∈ t.tokens, m.span token.span)
    (hatom : ∀ word span, ⟨.atom word, span⟩ ∈ t.tokens → m.atom (.ofText word)) :
    t.datum.DrawnFrom m := by
  induction t using ParseTree.induction with
  | atom word span =>
    exact Datum.drawnFrom_atom.mpr ⟨hspan ⟨.atom word, span⟩ (by simp), hatom word span (by simp)⟩
  | list opening ts closing ih =>
    rw [ParseTree.datum_list, ParseTree.data_eq, Datum.drawnFrom_list]
    refine ⟨hmerge _ _ (hspan ⟨.opening, opening⟩ (by simp)) (hspan ⟨.closing, closing⟩ (by simp)),
      fun e he => ?_⟩
    obtain ⟨t, ht, rfl⟩ := List.mem_map.mp he
    have hmem : ∀ token ∈ t.tokens, token ∈ (ParseTree.list opening ts closing).tokens := by
      intro token htoken
      rw [ParseTree.tokens_list, ParseTree.tokensOfAll_eq]
      refine List.mem_cons_of_mem _ (List.mem_append_left _ ?_)
      exact List.mem_flatMap.mpr ⟨t, ht, htoken⟩
    exact ih t ht (fun token htoken => hspan token (hmem token htoken))
      fun word span hword => hatom word span (hmem _ hword)

/-- **A stock that the tokens of a text belong to covers the text.** -/
theorem covers_of_scan (hmerge : ∀ a b, m.span a → m.span b → m.span (a.merge b))
    (hspan : ∀ token ∈ Token.scan 0 text.toList, m.span token.span)
    (hatom : ∀ word span, ⟨.atom word, span⟩ ∈ Token.scan 0 text.toList → m.atom (.ofText word)) :
    m.Covers text := by
  intro ds h d hd
  obtain ⟨-, h⟩ := readProgram_eq_ok_iff.mp h
  rcases readAll_cases (Token.scan 0 text.toList) with ⟨trees, htokens, hread⟩ |
    ⟨-, -, span, hread⟩ | ⟨trees, span, rest, -, hread⟩
  · obtain rfl := Except.ok.inj (hread.symm.trans h)
    obtain ⟨t, ht, rfl⟩ := List.mem_map.mp hd
    have hmem : ∀ token ∈ t.tokens, token ∈ Token.scan 0 text.toList := by
      intro token htoken
      rw [htokens, ParseTree.tokensOfAll_eq]
      exact List.mem_flatMap.mpr ⟨t, ht, htoken⟩
    exact drawnFrom_datum hmerge (fun token htoken => hspan token (hmem token htoken))
      fun word span hword => hatom word span (hmem _ hword)
  · cases hread.symm.trans h
  · cases hread.symm.trans h

end Stock

/-! ### What calls leave and answer -/

variable {m : Stock} {policy : FramePolicy} {depth : Nat} {i : Interpreter}

/-- The first expression of a text is one of all its expressions. -/
theorem exists_readProgram_of_readFirst {text : String} {d : Datum} (h : readFirst text = .ok d) :
    ∃ ds, readProgram text = .ok ds ∧ d ∈ ds := by
  rw [readFirst] at h
  split at h
  · cases h
  · next e es hread =>
    obtain rfl := Except.ok.inj h
    exact ⟨e :: es, hread, List.mem_cons_self⟩
  · cases h

theorem Interpreter.run_ensures {text : String} (htext : m.Covers text) :
    (i.run policy depth text).Ensures (Store.Holds (Datum.FilledFrom m)) m.AllowsError
      (Datum.DrawnFrom m) := by
  have hread : Meets m.AllowsError (Datum.DrawnFrom m) ((readFirst text).mapError Error.read) := by
    rcases h : readFirst text with e | d
    · exact trivial
    · obtain ⟨ds, hds, hd⟩ := exists_readProgram_of_readFirst h
      exact htext ds hds d hd
  refine (Action.ensures_ofExcept hread).bind fun d hd => ?_
  exact (eval_drawsFrom m policy depth d i.root hd).mapError fun _ he => he

theorem Interpreter.runAll_ensures {text : String} (htext : m.Covers text) :
    (i.runAll policy depth text).Ensures (Store.Holds (Datum.FilledFrom m)) m.AllowsError
      fun vs => ∀ v ∈ vs, v.DrawnFrom m := by
  have hread : Meets m.AllowsError (fun ds => ∀ d ∈ ds, d.DrawnFrom m)
      ((readProgram text).mapError Error.read) := by
    rcases h : readProgram text with e | ds
    · exact trivial
    · exact htext ds h
  refine (Action.ensures_ofExcept hread).bind fun ds hds => ?_
  rw [evaluateAll_eq]
  exact (evalElements_ensures (eval_drawsFrom m policy depth) hds).mapError fun _ he => he

/-- **A call with a text that the stock covers draws from the stock.** -/
theorem Call.answer_ensures {c : Call} (hc : m.Covers c.text) :
    (c.answer policy depth i).Ensures (Store.Holds (Datum.FilledFrom m)) m.AllowsError
      fun vs => ∀ v ∈ vs, v.DrawnFrom m := by
  cases c with
  | run text =>
    refine (Interpreter.run_ensures hc).bind fun v hv => ?_
    exact Action.ensures_pure (List.forall_mem_singleton.mpr hv)
  | runAll text => exact Interpreter.runAll_ensures hc

variable {texts : List String} {s t : Store} {c : Call} {r : Except Error (List Datum)}

/-- **What is reached holds values filled from the stock** that covers the texts. -/
theorem Reaches.holds (h : Reaches policy texts s) (hcovers : ∀ text ∈ texts, m.Covers text) :
    s.Holds (Datum.FilledFrom m) := by
  induction h with
  | new =>
    rw [Interpreter.new_eq]
    exact Store.holds_empty.addRoot Datum.filledFrom_primitive
  | call _ h ih =>
    obtain ⟨depth, h⟩ := h
    rw [List.forall_mem_append, List.forall_mem_singleton] at hcovers
    exact (Call.answer_ensures hcovers.2 (ih hcovers.1) h).1

/-- **What is answered is drawn from the stock** that covers the texts, that of the call
among them. -/
theorem Answers.meets (hs : Reaches policy texts s) (h : Answers policy i s c r t)
    (hcovers : ∀ text ∈ texts ++ [c.text], m.Covers text) :
    Meets m.AllowsError (fun vs => ∀ v ∈ vs, v.DrawnFrom m) r := by
  obtain ⟨depth, h⟩ := h
  rw [List.forall_mem_append, List.forall_mem_singleton] at hcovers
  exact (Call.answer_ensures hcovers.2 (hs.holds hcovers.1) h).2

end SmallLisp
