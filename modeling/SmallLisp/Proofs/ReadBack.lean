import SmallLisp.Proofs.RoundTrip
import SmallLisp.Proofs.Stock.Calls

/-!
# What is computed can be read back

The printer escapes nothing, so one unreadable atom would be enough for a printed value to be
read as another one. There is none: the readable atoms, numbers and booleans among them, are a
stock that covers every text, and so every atom that an interpreter ever holds or gives out is
readable, those in the bodies of closures too. A value without procedures is then a readable
datum, and it is printed as a text that reads as the same datum:
`SmallLisp.computed_values_read_back`.
-/

namespace SmallLisp

/-! ### The readable atoms -/

/-- The readable atoms, with any spans. -/
def Stock.readable : Stock where
  span _ := True
  atom := Atom.Readable
  number _ := trivial
  boolean _ := trivial

/-- What is read from a text has readable atoms, since the atoms are words of the text. -/
theorem Stock.covers_readable (text : String) : Stock.readable.Covers text :=
  Stock.covers_of_scan (fun _ _ _ _ => trivial) (fun _ _ => trivial) fun _ _ hword =>
    Atom.readable_ofText (Token.isWord_of_mem_scan hword)

namespace Datum

variable {d : Datum}

/-- **All atoms of a datum are readable**, at whatever depth they stand in it. -/
def HasReadableAtoms (d : Datum) : Prop := ∀ a span, .atom a span ∈ d.nodes → a.Readable

theorem DrawnFrom.hasReadableAtoms (h : d.DrawnFrom .readable) : d.HasReadableAtoms :=
  fun a span ha => (h (.atom a span) ha).2

/-- **A datum without procedures whose atoms are readable is readable itself.** -/
theorem readable_of_drawnFrom (h : d.DrawnFrom .readable)
    (hprocedure : ∀ n ∈ d.nodes, n.kind ≠ .procedure) : d.Readable := by
  induction d using Datum.induction with
  | atom a s => exact .atom s (drawnFrom_atom.mp h).2
  | list es s ih =>
    refine .list s fun e he => ih e he ((drawnFrom_list.mp h).2 e he) fun n hn => ?_
    refine hprocedure n ?_
    rw [nodes, nodesOfAll_eq]
    exact List.mem_cons_of_mem _ (List.mem_flatMap.mpr ⟨e, he, hn⟩)
  | primitive p s => exact absurd rfl (hprocedure (.primitive p s) List.mem_cons_self)
  | closure id params body frame s =>
    exact absurd rfl (hprocedure (.closure id params body frame s) List.mem_cons_self)

/-- A readable datum is the first, and only, expression of its printed form. -/
theorem Readable.exists_readFirst (h : d.Readable) :
    ∃ e, readFirst d.render = .ok e ∧ e.eraseSpans = d.eraseSpans := by
  obtain ⟨t, ht⟩ := exists_tree_of_readable h 0
  obtain ⟨first, rest, htokens⟩ := List.exists_cons_of_ne_nil t.tokens_ne_nil
  have hread : readAll t.tokens = .ok [t.datum] := by
    have hall := readAll_tokensOfAll [t]
    rwa [ParseTree.tokensOfAll_cons, ParseTree.tokensOfAll_nil, List.append_nil] at hall
  have hprogram : readProgram d.render = .ok [t.datum] := by
    rw [readProgram_of_scan (ht.scan.trans htokens), ← htokens, hread]
  exact ⟨t.datum, by rw [readFirst, hprogram], ht.erased⟩

end Datum

/-! ### Reading back -/

/-- **Everything that is computed can be printed and read back.** In every store that an
interpreter reaches by calls, whatever their texts, all atoms of all values that are bound in
any frame are readable, and so are those of every value that a further call gives. If such a
value holds no procedure, then from its printed form the same datum is read, up to spans. -/
theorem computed_values_read_back (policy : FramePolicy) {texts : List String} {s : Store}
    (hs : Reaches policy texts s) :
    (∀ f x v, (s.bindings f).get? x = some v → v.HasReadableAtoms) ∧
    ∀ c vs t, Answers policy (Interpreter.new .empty).1 s c (.ok vs) t → ∀ v ∈ vs,
      v.HasReadableAtoms ∧
      ((∀ n ∈ v.nodes, n.kind ≠ .procedure) →
        ∃ d, readFirst v.render = .ok d ∧ d.eraseSpans = v.eraseSpans) := by
  constructor
  · intro f x v hv
    have hfilled := hs.holds (fun text _ => Stock.covers_readable text) f x v hv
    have hdrawn := hfilled v.span trivial
    rw [Datum.withSpan_span] at hdrawn
    exact hdrawn.hasReadableAtoms
  · intro c vs t h v hv
    have hdrawn := Answers.meets hs h (fun text _ => Stock.covers_readable text) v hv
    refine ⟨hdrawn.hasReadableAtoms, fun hprocedure => ?_⟩
    exact (Datum.readable_of_drawnFrom hdrawn hprocedure).exists_readFirst

/-- `(cons nil (cdr (quote (a "b))))` gives a list that stands in no text: that of `nil` and a
name that begins with a quote. -/
theorem list_of_half_quoted_name_reads_back :
    let i := (Interpreter.new .empty).1
    let s := (Interpreter.new .empty).2
    let v : Datum := .list [.boolean false ⟨6, 9⟩, .symbol "\"b" ⟨25, 27⟩] ⟨0, 31⟩
    Answers .clearFinished i s (.runAll "(cons nil (cdr (quote (a \"b))))") (.ok [v]) s ∧
      v.render = "(nil \"b)" ∧
      ∃ d, readFirst "(nil \"b)" = .ok d ∧ d.eraseSpans = v.eraseSpans := by
  intro i s v
  have htokens : Token.scan 0 "(cons nil (cdr (quote (a \"b))))".toList =
      [⟨.opening, ⟨0, 1⟩⟩, ⟨.atom "cons", ⟨1, 5⟩⟩, ⟨.atom "nil", ⟨6, 9⟩⟩, ⟨.opening, ⟨10, 11⟩⟩,
        ⟨.atom "cdr", ⟨11, 14⟩⟩, ⟨.opening, ⟨15, 16⟩⟩, ⟨.atom "quote", ⟨16, 21⟩⟩,
        ⟨.opening, ⟨22, 23⟩⟩, ⟨.atom "a", ⟨23, 24⟩⟩, ⟨.atom "\"b", ⟨25, 27⟩⟩,
        ⟨.closing, ⟨27, 28⟩⟩, ⟨.closing, ⟨28, 29⟩⟩, ⟨.closing, ⟨29, 30⟩⟩,
        ⟨.closing, ⟨30, 31⟩⟩] := by
    cbv
  have hread : readProgram "(cons nil (cdr (quote (a \"b))))" = .ok [.list [
      .symbol "cons" ⟨1, 5⟩, .boolean false ⟨6, 9⟩, .list [.symbol "cdr" ⟨11, 14⟩,
        .list [.symbol "quote" ⟨16, 21⟩, .list [.symbol "a" ⟨23, 24⟩, .symbol "\"b" ⟨25, 27⟩]
          ⟨22, 28⟩] ⟨15, 29⟩] ⟨10, 30⟩] ⟨0, 31⟩] := by
    rw [readProgram_of_scan htokens]
    cbv
  have hanswer : Answers .clearFinished i s (.runAll "(cons nil (cdr (quote (a \"b))))") (.ok [v])
      s := by
    refine ⟨4, ?_⟩
    rw [Call.answer, i.runAll_of_ok hread]
    unfold i s v
    cbv
  have hrender : v.render = "(nil \"b)" := by
    unfold v
    cbv
  have hback := (computed_values_read_back .clearFinished .new).2 _ _ _ hanswer v List.mem_cons_self
  rw [hrender] at hback
  refine ⟨hanswer, hrender, hback.2 ?_⟩
  unfold v
  decide

end SmallLisp
