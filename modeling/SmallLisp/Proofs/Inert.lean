import SmallLisp.Proofs.Eval.LambdaFree
import SmallLisp.Proofs.ReadBack

/-!
# Data that evaluate to themselves

There is nothing to evaluate in a datum without symbols, unless one of its lists begins with a
procedure and is taken for a call. Such data are called *inert* (`SmallLisp.Datum.Inert`). The
elements of an inert list are evaluated all the same, but each comes to itself, so that the list
is put together again as it was, with the same spans (`SmallLisp.eval_inert`).

Spans do not matter for being inert, and so the property survives printing and reading. An inert
datum that can be printed and read back is therefore also run back: what its printed form
evaluates to is what is read from it (`SmallLisp.inert_data_evaluate_to_themselves`).
-/

namespace SmallLisp

/-- A datum with nothing to evaluate: there is no symbol in it, and no list that begins with a
procedure. Procedures may stand elsewhere; what their bodies hold does not matter. -/
inductive Datum.Inert : Datum → Prop
  | atom {a : Atom} (span : Span) (h : ∀ name, a ≠ .symbol name) : Inert (.atom a span)
  | list {es : List Datum} (span : Span) (helements : ∀ e ∈ es, Inert e)
    (hhead : ∀ e, es.head? = some e → e.kind ≠ .procedure) : Inert (.list es span)
  | primitive (p : Primitive) (span : Span) : Inert (.primitive p span)
  | closure (id : Nat) (params : List String) (body : List Datum) (frame : FrameId) (span : Span) :
    Inert (.closure id params body frame span)

/-! ### Evaluation -/

/-- Elements that come to themselves are the values of the elements. -/
theorem evalElements_self {ev : Evaluator} {f : FrameId} {s : Store} {es : List Datum}
    (h : ∀ e ∈ es, ev e f s = some (.ok e, s)) : evalElements ev f es s = some (.ok es, s) := by
  induction es with
  | nil => rfl
  | cons e es ih =>
    obtain ⟨he, hes⟩ := List.forall_mem_cons.mp h
    rw [evalElements, Action.bind_apply, he]
    dsimp only
    rw [Action.bind_apply, ih hes]
    rfl

theorem Datum.Inert.keyword?_eq_none {d : Datum} (h : d.Inert) : d.keyword? = none := by
  cases h with
  | @atom a _ h =>
    cases a with
    | symbol name => exact absurd rfl (h name)
    | number | text | boolean => rfl
  | list | primitive | closure => rfl

/-- **An inert datum evaluates to itself**, by a recursion that goes as deep as the datum is
nested. -/
theorem eval_inert {d : Datum} (h : d.Inert) (policy : FramePolicy) (s : Store) (f : FrameId)
    {depth : Nat} (hdepth : d.nesting < depth) : eval policy depth d f s = some (.ok d, s) := by
  induction h generalizing depth with
  | @atom a _ h =>
    obtain ⟨depth, rfl⟩ := Nat.exists_eq_add_one_of_ne_zero (Nat.ne_zero_of_lt hdepth)
    cases a with
    | symbol name => exact absurd rfl (h name)
    | number | text | boolean => rfl
  | primitive | closure =>
    obtain ⟨depth, rfl⟩ := Nat.exists_eq_add_one_of_ne_zero (Nat.ne_zero_of_lt hdepth)
    rfl
  | @list es span helements hhead ih =>
    obtain ⟨depth, rfl⟩ := Nat.exists_eq_add_one_of_ne_zero (Nat.ne_zero_of_lt hdepth)
    cases es with
    | nil => rfl
    | cons e es =>
      have hvalues : evalElements (eval policy depth) f (e :: es) s = some (.ok (e :: es), s) :=
        evalElements_self fun x hx =>
          ih x hx ((Datum.nesting_lt_of_mem hx).trans_le (Nat.le_of_lt_succ hdepth))
      have hprocedure : e.procedure? = none := by
        rw [← Option.not_isSome_iff_eq_none, Datum.isSome_procedure?_iff]
        exact hhead e rfl
      have hkeyword := (helements e List.mem_cons_self).keyword?_eq_none
      rw [eval_succ, evalStep, hkeyword]
      dsimp only
      rw [evalApplication, Action.bind_apply, hvalues]
      dsimp only [List.head?_cons, Option.bind_some]
      rw [hprocedure]
      rfl

/-! ### Spans -/

namespace Datum

theorem inert_list_iff {es : List Datum} {s : Span} :
    (Datum.list es s).Inert ↔
      (∀ e ∈ es, e.Inert) ∧ ∀ e, es.head? = some e → e.kind ≠ .procedure := by
  constructor
  · rintro (_ | ⟨_, helements, hhead⟩)
    exact ⟨helements, hhead⟩
  · exact fun h => .list s h.1 h.2

theorem kind_eraseSpans (d : Datum) : d.eraseSpans.kind = d.kind := by
  rcases d with ⟨_ | _ | _ | _, _⟩ | _ | _ | _ <;> rfl

theorem inert_eraseSpans_iff {d : Datum} : d.eraseSpans.Inert ↔ d.Inert := by
  induction d using Datum.induction with
  | atom a s =>
    constructor
    · rintro ⟨_, h⟩
      exact .atom s h
    · rintro ⟨_, h⟩
      exact .atom .none h
  | list es s ih =>
    rw [eraseSpans, eraseAllSpans_eq, inert_list_iff, inert_list_iff]
    refine and_congr ?_ ?_
    · rw [List.forall_mem_map]
      exact forall₂_congr ih
    · cases es with
      | nil => simp
      | cons e es => simp [kind_eraseSpans]
  | primitive p s => exact iff_of_true (.primitive p .none) (.primitive p s)
  | closure => exact iff_of_true (.closure ..) (.closure ..)

theorem nesting_eraseSpans (d : Datum) : d.eraseSpans.nesting = d.nesting := by
  induction d using Datum.induction with
  | atom | primitive | closure => rfl
  | list es s ih =>
    rw [eraseSpans, nesting, nesting, eraseAllSpans_eq]
    congr 1
    induction es with
    | nil => rfl
    | cons e es ih' =>
      obtain ⟨he, hes⟩ := List.forall_mem_cons.mp ih
      rw [List.map_cons, nestingOfAll, nestingOfAll, he, ih' hes]

/-! ### Printing -/

theorem nodes_subset_of_mem {e : Datum} {es : List Datum} {s : Span} (he : e ∈ es) :
    e.nodes ⊆ (Datum.list es s).nodes := by
  intro n hn
  rw [nodes, nodesOfAll_eq]
  exact List.mem_cons_of_mem _ (List.mem_flatMap.mpr ⟨e, he, hn⟩)

/-- **An inert datum without procedures is readable**, if its texts are. -/
theorem Inert.readable {d : Datum} (h : d.Inert) (hprocedure : ∀ n ∈ d.nodes, n.kind ≠ .procedure)
    (htext : ∀ content span, .atom (.text content) span ∈ d.nodes → (Atom.text content).Readable) :
    d.Readable := by
  induction h with
  | @atom a span h =>
    refine .atom span ?_
    cases a with
    | number | boolean => trivial
    | text content => exact htext content span List.mem_cons_self
    | symbol name => exact absurd rfl (h name)
  | list span _ _ ih =>
    refine .list span fun e he => ih e he ?_ ?_
    · exact fun n hn => hprocedure n (nodes_subset_of_mem he hn)
    · exact fun content span' hn => htext content span' (nodes_subset_of_mem he hn)
  | primitive p span => exact absurd rfl (hprocedure _ List.mem_cons_self)
  | closure id params body frame span => exact absurd rfl (hprocedure _ List.mem_cons_self)

end Datum

/-- **Inert data evaluate to themselves, and survive being printed and run.** In every frame of
every store, an inert datum comes to exactly itself, and nothing is changed. If it holds no
procedure and its texts hold no blanks, parentheses and quotes, then its printed form reads as the
same datum up to spans, and that datum is what every interpreter evaluates the printed form to, in
every store, which stays as it is. -/
theorem inert_data_evaluate_to_themselves {d : Datum} (hd : d.Inert) :
    (∀ policy s f depth, d.nesting < depth → eval policy depth d f s = some (.ok d, s)) ∧
    ((∀ n ∈ d.nodes, n.kind ≠ .procedure) →
      (∀ content span, .atom (.text content) span ∈ d.nodes → ∀ c ∈ content.toList,
        isBlank c = false ∧ c ∉ ['(', ')', '"', '\'']) →
      ∃ e, readFirst d.render = .ok e ∧ e.eraseSpans = d.eraseSpans ∧
        ∀ policy (i : Interpreter) s depth, d.nesting < depth →
          i.run policy depth d.render s = some (.ok e, s)) := by
  refine ⟨fun policy s f depth => eval_inert hd policy s f, fun hprocedure htext => ?_⟩
  have hreadable : d.Readable := by
    refine hd.readable hprocedure fun content span hn c hc => ?_
    obtain ⟨hblank, hother⟩ := htext content span hn c hc
    simp only [List.mem_cons, List.not_mem_nil, or_false, not_or] at hother
    obtain ⟨hopening, hclosing, hdouble, hsingle⟩ := hother
    exact ⟨by simp [Token.isAtomChar, hblank, hopening, hclosing], hdouble, hsingle⟩
  obtain ⟨e, hread, herased⟩ := hreadable.exists_readFirst
  -- what is read differs from `d` in spans only, so it is inert and nested as deep
  have he : e.Inert := by rwa [← Datum.inert_eraseSpans_iff, herased, Datum.inert_eraseSpans_iff]
  have hnesting : e.nesting = d.nesting := by
    rw [← Datum.nesting_eraseSpans, herased, Datum.nesting_eraseSpans]
  refine ⟨e, hread, herased, fun policy i s depth hdepth => ?_⟩
  rw [i.run_of_ok hread, Action.mapError, eval_inert he policy s i.root (hnesting ▸ hdepth)]

/-- `(() "a" inf (nil nan))` is what its printed form is run to, in every interpreter. A list may
also hold a closure, whatever its body, as long as it does not begin with it. -/
theorem nested_literals_run_back :
    let n := Span.none
    let d : Datum := .list [.list [] n, .atom (.text "a") n,
      .number (Double.ofMagnitude false Double.infinity) n, .list [.boolean false n,
        .number (Double.ofMagnitude false (Double.infinity + 1)) n] n] n
    let c : Datum := .list [.list [] n, .closure 0 ["x"] [.symbol "x" n] 0 n] n
    d.Inert ∧ c.Inert ∧ (∀ policy s f, eval policy 3 c f s = some (.ok c, s)) ∧
      d.render = "(() \"a\" inf (nil nan))" ∧
      ∃ e, e.eraseSpans = d.eraseSpans ∧ ∀ policy (i : Interpreter) s,
        i.run policy 3 "(() \"a\" inf (nil nan))" s = some (.ok e, s) := by
  intro n d c
  have hempty : (Datum.list [] n).Inert := .list n (List.forall_mem_nil _) (by simp)
  have hd : d.Inert := by
    refine .list n ?_ fun e he => by simp [← Option.some.inj he, Datum.kind]
    have hinner : (Datum.list [.boolean false n,
        .number (Double.ofMagnitude false (Double.infinity + 1)) n] n).Inert := by
      refine .list n ?_ fun e he => by simp [← Option.some.inj he, Datum.kind]
      simp only [List.forall_mem_cons]
      exact ⟨.atom n (by simp), .atom n (by simp), List.forall_mem_nil _⟩
    simp only [List.forall_mem_cons]
    exact ⟨hempty, .atom n (by simp), .atom n (by simp), hinner, List.forall_mem_nil _⟩
  have hc : c.Inert := by
    refine .list n ?_ fun e he => by simp [← Option.some.inj he, Datum.kind]
    simp only [List.forall_mem_cons]
    exact ⟨hempty, .closure .., List.forall_mem_nil _⟩
  have hrender : d.render = "(() \"a\" inf (nil nan))" := by
    unfold d
    cbv
  have htext : ∀ content span, .atom (.text content) span ∈ d.nodes → ∀ c ∈ content.toList,
      isBlank c = false ∧ c ∉ ['(', ')', '"', '\''] := by
    intro content span hn c hc
    obtain ⟨rfl, -⟩ : content = "a" ∧ span = n := by
      simpa [d, Datum.nodes, Datum.nodesOfAll] using hn
    obtain rfl : c = 'a' := by simpa using hc
    decide
  obtain ⟨e, -, herased, hrun⟩ :=
    (inert_data_evaluate_to_themselves hd).2 (by unfold d; decide) htext
  rw [hrender] at hrun
  refine ⟨hd, hc, fun policy s f => ?_, hrender, e, herased, fun policy i s => ?_⟩
  · exact (inert_data_evaluate_to_themselves hc).1 policy s f 3 (by decide)
  · exact hrun policy i s 3 (by decide)

end SmallLisp
