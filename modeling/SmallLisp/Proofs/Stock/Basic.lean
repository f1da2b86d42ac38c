import SmallLisp.Proofs.Eval.PassedOn
import SmallLisp.Proofs.Likeness.Form
import SmallLisp.Proofs.Likeness.Primitive

/-!
# What data are drawn from

A datum is a tree (`SmallLisp.Datum.nodes`). Each of its nodes has a span, and some have an
atom. A `SmallLisp.Stock` is what they may be taken from: a set of spans and a set of atoms,
among them the numbers and the booleans, which a program can make.

Nothing else is ever made. A primitive puts a number, a boolean or a list at the place of
the call, and takes the rest from its arguments; so what it gives is drawn from every stock
that its arguments and its call are drawn from, and so is the place of an error
(`SmallLisp.Primitive.meets_apply`). The same goes for special forms and their operands
(`SmallLisp.SpecialForm.meets_ofOperands`).

That an error is at the call or at an argument is seen by comparing the arguments with
themselves: they are alike on the terms that a span has to be one of the stock, and then
like errors are as well.
-/

namespace SmallLisp

/-! ### Nodes -/

mutual

/-- **The nodes of a datum**: itself, the nodes of its elements if it is a list, and those of
its body if it is a closure. -/
def Datum.nodes : Datum → List Datum
  | .atom a s => [.atom a s]
  | .list es s => .list es s :: Datum.nodesOfAll es
  | .primitive p s => [.primitive p s]
  | .closure id params body frame s => .closure id params body frame s :: Datum.nodesOfAll body

/-- The nodes of the data of a list. -/
def Datum.nodesOfAll : List Datum → List Datum
  | [] => []
  | d :: ds => d.nodes ++ Datum.nodesOfAll ds

end

theorem Datum.nodesOfAll_eq (ds : List Datum) : Datum.nodesOfAll ds = ds.flatMap Datum.nodes := by
  induction ds with
  | nil => rfl
  | cons d ds ih => rw [Datum.nodesOfAll, ih, List.flatMap_cons]

/-! ### Stocks -/

/-- **A stock**: the spans and the atoms that data may have. -/
structure Stock where
  /-- The spans of the stock. -/
  span : Span → Prop
  /-- The atoms of the stock. -/
  atom : Atom → Prop
  /-- Numbers can be computed, so all of them belong to it. -/
  number : ∀ x, atom (.number x)
  /-- So do the booleans. -/
  boolean : ∀ b, atom (.boolean b)

/-- A node whose span and atom belong to the stock. -/
def Stock.Allows (m : Stock) : Datum → Prop
  | .atom a s => m.span s ∧ m.atom a
  | .list _ s => m.span s
  | .primitive _ s => m.span s
  | .closure _ _ _ _ s => m.span s

namespace Datum

variable {m : Stock} {d : Datum} {s : Span}

/-- **A datum drawn from a stock**: each of its nodes has a span and an atom of the stock. -/
def DrawnFrom (m : Stock) (d : Datum) : Prop := ∀ n ∈ d.nodes, m.Allows n

@[simp]
theorem drawnFrom_atom {a : Atom} : (Datum.atom a s).DrawnFrom m ↔ m.span s ∧ m.atom a := by
  simp [DrawnFrom, nodes, Stock.Allows]

@[simp]
theorem drawnFrom_list {es : List Datum} :
    (Datum.list es s).DrawnFrom m ↔ m.span s ∧ ∀ e ∈ es, e.DrawnFrom m := by
  simp only [DrawnFrom, nodes, nodesOfAll_eq, List.forall_mem_cons, Stock.Allows,
    List.forall_mem_flatMap]

@[simp]
theorem drawnFrom_primitive {p : Primitive} :
    (Datum.primitive p s).DrawnFrom m ↔ m.span s := by
  simp [DrawnFrom, nodes, Stock.Allows]

@[simp]
theorem drawnFrom_closure {id : Nat} {params : List String} {body : List Datum} {frame : FrameId} :
    (Datum.closure id params body frame s).DrawnFrom m ↔
      m.span s ∧ ∀ e ∈ body, e.DrawnFrom m := by
  simp only [DrawnFrom, nodes, nodesOfAll_eq, List.forall_mem_cons, Stock.Allows,
    List.forall_mem_flatMap]

theorem DrawnFrom.span (h : d.DrawnFrom m) : m.span d.span := by
  cases d with
  | atom a s => exact (drawnFrom_atom.mp h).1
  | list es s => exact (drawnFrom_list.mp h).1
  | primitive p s => exact drawnFrom_primitive.mp h
  | closure id params body frame s => exact (drawnFrom_closure.mp h).1

/-- **A datum filled from a stock**: all of it is drawn from the stock, its own span apart,
which may be replaced by any of the stock. -/
def FilledFrom (m : Stock) (d : Datum) : Prop := ∀ s, m.span s → (d.withSpan s).DrawnFrom m

theorem DrawnFrom.filledFrom (h : d.DrawnFrom m) : d.FilledFrom m := by
  intro s hs
  cases d with
  | atom a _ => exact drawnFrom_atom.mpr ⟨hs, (drawnFrom_atom.mp h).2⟩
  | list es _ => exact drawnFrom_list.mpr ⟨hs, (drawnFrom_list.mp h).2⟩
  | primitive p _ => exact drawnFrom_primitive.mpr hs
  | closure id params body frame _ => exact drawnFrom_closure.mpr ⟨hs, (drawnFrom_closure.mp h).2⟩

theorem filledFrom_primitive (p : Primitive) : (Datum.primitive p s).FilledFrom m :=
  fun _ hs => drawnFrom_primitive.mpr hs

end Datum

/-! ### Results -/

/-- A result whose error, if it is one, is at a span of the stock. -/
abbrev Stock.Meets {α : Type} (m : Stock) (Q : α → Prop) (r : Except EvalError α) : Prop :=
  SmallLisp.Meets (fun e => m.span e.span) Q r

/-- The terms on which a datum drawn from the stock is like itself. -/
def Stock.terms (m : Stock) : Terms where
  span s _ := m.span s
  name _ := True

theorem Datum.DrawnFrom.code {m : Stock} {d : Datum} (h : d.DrawnFrom m) :
    m.terms.Code .same d d := by
  induction d using Datum.induction with
  | atom a s => exact .atom (fun _ _ => trivial) (drawnFrom_atom.mp h).1
  | list es s ih =>
    obtain ⟨hs, hes⟩ := drawnFrom_list.mp h
    exact .list (List.forall₂_same.mpr fun e he => ih e he (hes e he)) hs
  | primitive p s => exact .primitive (drawnFrom_primitive.mp h)
  | closure id params body frame s ih =>
    obtain ⟨hs, hbody⟩ := drawnFrom_closure.mp h
    exact .closure rfl rfl (fun _ _ => trivial)
      (List.forall₂_same.mpr fun e he => ih e he (hbody e he)) hs

/-- An error that is like itself on the terms of the stock is at a span of the stock. -/
theorem Stock.span_of_outcome {α : Type} {m : Stock} {R : α → α → Prop} {e : EvalError}
    (h : m.terms.Outcome .same R (.error e) (.error e)) : m.span e.span := by
  cases h with
  | error hfailure => exact hfailure.span

/-! ### Primitives -/

namespace Primitive

variable {m : Stock} {args : List Datum} {span : Span}

/-- **What a primitive gives is drawn from what it is given**, and from the numbers and the
booleans. -/
theorem drawnFrom_of_apply {p : Primitive} (hargs : ∀ d ∈ args, d.DrawnFrom m)
    (hspan : m.span span) {v : Datum} (h : p.apply args span = .ok v) : v.DrawnFrom m := by
  have hpassed : PassedOn span (fun _ => True) (Datum.DrawnFrom m) :=
    { number := fun x => Datum.drawnFrom_atom.mpr ⟨hspan, m.number x⟩
      boolean := fun b => Datum.drawnFrom_atom.mpr ⟨hspan, m.boolean b⟩
      list := fun es hes => Datum.drawnFrom_list.mpr ⟨hspan, hes⟩
      element := fun es s hes => (Datum.drawnFrom_list.mp hes).2
      call := fun _ => trivial
      argument := fun _ _ _ => trivial
      form := fun _ => trivial
      notSymbol := fun _ _ => trivial }
  have hmeets := hpassed.meets_apply p hargs
  rwa [h] at hmeets

/-- **The result of a primitive**: a value drawn from the stock of its arguments and its call,
or an error at a span of it. -/
theorem meets_apply (p : Primitive) (hargs : ∀ d ∈ args, d.DrawnFrom m) (hspan : m.span span) :
    m.Meets (Datum.DrawnFrom m) (p.apply args span) := by
  have hvalues : List.Forall₂ (m.terms.Value .same .same) args args :=
    List.forall₂_same.mpr fun d hd => (hargs d hd).code.value le_rfl
  have halike : m.terms.Outcome .same (m.terms.Value .same .same) (p.apply args span)
      (p.apply args span) := by
    refine p.apply_outcome ?_ hvalues hspan
    rintro i _ i' _ rfl rfl
    exact Iff.rfl
  rcases h : p.apply args span with e | v
  · rw [h] at halike
    exact Stock.span_of_outcome halike
  · exact drawnFrom_of_apply hargs hspan h

end Primitive

/-! ### Special forms -/

namespace SpecialForm

variable {m : Stock} {ds : List Datum} {span : Span}

/-- The values of bindings are among the data that the bindings are made of. -/
theorem mem_of_bindingPairs {bindings : List (String × Datum)}
    (h : bindingPairs ds = .ok bindings) : ∀ b ∈ bindings, b.2 ∈ ds := by
  fun_induction bindingPairs ds generalizing bindings with
  | case1 name value ds ih =>
    obtain ⟨x, -, h⟩ := except_bind_eq_ok_iff.mp h
    obtain ⟨rest, hrest, h⟩ := except_bind_eq_ok_iff.mp h
    obtain rfl := Except.ok.inj h
    refine List.forall_mem_cons.mpr ⟨by simp, fun b hb => ?_⟩
    exact List.mem_cons_of_mem _ (List.mem_cons_of_mem _ (ih hrest b hb))
  | case2 ds _ =>
    obtain rfl := Except.ok.inj h
    exact fun b hb => absurd hb List.not_mem_nil

/-- **What comes of the operands of a keyword**: the form that they make, or an error at a
span of the stock that they are drawn from. -/
theorem meets_ofOperands (keyword : Keyword) (hds : ∀ d ∈ ds, d.DrawnFrom m)
    (hspan : m.span span) :
    m.Meets (MadeOf keyword ds) (ofOperands keyword ds span) := by
  have hcode : List.Forall₂ (m.terms.Code .same) ds ds :=
    List.forall₂_same.mpr fun d hd => (hds d hd).code
  have halike : m.terms.Outcome .same (m.terms.FormLike .same) (ofOperands keyword ds span)
      (ofOperands keyword ds span) := ofOperands_outcome keyword hcode hspan
  rcases h : ofOperands keyword ds span with e | form
  · rw [h] at halike
    exact Stock.span_of_outcome halike
  · exact madeOf_of_ofOperands h

end SpecialForm

end SmallLisp
