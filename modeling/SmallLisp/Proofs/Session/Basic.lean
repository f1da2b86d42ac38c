import SmallLisp.Proofs.Eval.WriteFrame
import SmallLisp.Proofs.Reading
import SmallLisp.Session

/-!
# Sessions taken apart

What the proofs about sessions need to know of a step: what a name stands for after a
change of names, what running a text comes to once the text has been read, and what it
may write.
-/

namespace SmallLisp

variable {policy : FramePolicy} {depth : Nat} {ε α : Type}

/-! ### Running texts -/

theorem Action.mapError_bind {ε δ β : Type} (x : Action ε α) (F : α → Action ε β) (g : ε → δ) :
    (x >>= F).mapError g = x.mapError g >>= fun a => (F a).mapError g := by
  funext s
  rw [Action.bind_apply, Action.mapError, Action.mapError, Action.bind_apply]
  rcases x s with _ | ⟨_ | a, u⟩ <;> rfl

namespace Interpreter

theorem new_eq (s : Store) : Interpreter.new s = (⟨s.frames.size⟩, s.addRoot.2) := rfl

variable (i : Interpreter)

theorem evaluateAll_eq (ds : List Datum) :
    i.evaluateAll policy depth ds =
      (evalElements (eval policy depth) i.root ds).mapError Error.eval := by
  induction ds with
  | nil => rfl
  | cons d ds ih =>
    rw [evaluateAll, evalElements, ih]
    simp only [Action.mapError_bind]
    rfl

/-- A text that cannot be read changes nothing. -/
theorem run_of_error {text : String} {e : ReadError} (h : readFirst text = .error e) :
    i.run policy depth text = Action.fail (.read e) := by
  rw [run, h]
  rfl

theorem run_of_ok {text : String} {d : Datum} (h : readFirst text = .ok d) :
    i.run policy depth text = (eval policy depth d i.root).mapError Error.eval := by
  rw [run, h]
  rfl

theorem runAll_of_error {text : String} {e : ReadError} (h : readProgram text = .error e) :
    i.runAll policy depth text = Action.fail (.read e) := by
  rw [runAll, h]
  rfl

theorem runAll_of_ok {text : String} {ds : List Datum} (h : readProgram text = .ok ds) :
    i.runAll policy depth text =
      (evalElements (eval policy depth) i.root ds).mapError Error.eval := by
  rw [← evaluateAll_eq, runAll, h]
  rfl

/-- Running a text writes no frame that was there but the root. -/
theorem run_keeps (text : String) :
    (i.run policy depth text).Keeps (Store.Changes i.root Set.univ) :=
  (Action.keeps_ofExcept _).bind fun d =>
    ((eval_confined policy depth).keeps_univ d i.root).mapError _

theorem runAll_keeps (text : String) :
    (i.runAll policy depth text).Keeps (Store.Changes i.root Set.univ) := by
  refine (Action.keeps_ofExcept _).bind fun ds => ?_
  rw [evaluateAll_eq]
  have hds := fun d (_ : d ∈ ds) => (eval_confined policy depth).keeps_univ d i.root
  exact (evalElements_keeps hds).mapError _

end Interpreter

/-! ### Names -/

namespace Session

theorem named_eq_ok_iff {table : List (String × α)} {name : String} {v : α} :
    named table name = .ok v ↔ table.lookup name = some v := by
  rw [named]
  cases table.lookup name <;> simp

theorem mem_of_named {table : List (String × α)} {name : String} {v : α}
    (h : named table name = .ok v) : (name, v) ∈ table := by
  obtain ⟨es, es', rfl, -⟩ := List.lookup_eq_some_iff.mp (named_eq_ok_iff.mp h)
  simp

theorem exists_mem_of_mapM_named {table : List (String × α)} {names : List String} {vs : List α}
    (h : names.mapM (named table) = .ok vs) : ∀ v ∈ vs, ∃ name, (name, v) ∈ table := by
  induction names generalizing vs with
  | nil =>
    obtain rfl := Except.ok.inj h
    exact fun v hv => absurd hv List.not_mem_nil
  | cons name names ih =>
    rw [List.mapM_cons] at h
    obtain ⟨v, hv, h⟩ := except_bind_eq_ok_iff.mp h
    obtain ⟨vs', hvs', h⟩ := except_bind_eq_ok_iff.mp h
    obtain rfl := Except.ok.inj h
    exact List.forall_mem_cons.mpr ⟨⟨name, mem_of_named hv⟩, ih hvs'⟩

theorem forall_mem_giveName {table : List (String × α)} {P : α → Prop}
    (h : ∀ e ∈ table, P e.2) (name : String) {v : α} (hv : P v) :
    ∀ e ∈ giveName table name v, P e.2 :=
  List.forall_mem_cons.mpr ⟨hv, fun e he => h e (List.mem_filter.mp he).1⟩

theorem forget_cons (e : String × α) (table : List (String × α)) (name : String) :
    forget (e :: table) name =
      if e.1 = name then forget table name else e :: forget table name := by
  by_cases h : e.1 = name <;> simp [forget, h]

theorem lookup_forget_self (table : List (String × α)) (name : String) :
    (forget table name).lookup name = none := by
  induction table with
  | nil => rfl
  | cons e table ih =>
    rw [forget_cons]
    split
    · exact ih
    · next h => rw [List.lookup_cons, beq_false_of_ne (Ne.symm h), ih]

theorem lookup_forget_of_ne (table : List (String × α)) {name other : String} (h : name ≠ other) :
    (forget table other).lookup name = table.lookup name := by
  induction table with
  | nil => rfl
  | cons e table ih =>
    obtain ⟨x, v⟩ := e
    rw [forget_cons]
    split
    · next hx =>
      subst hx
      rw [ih, List.lookup_cons, beq_false_of_ne h]
    · by_cases hname : name = x
      · simp [hname]
      · rw [List.lookup_cons, List.lookup_cons, beq_false_of_ne hname, ih]

theorem dropNamed_of_none {sess : Session} {name : String}
    (h : sess.interpreters.lookup name = none) : sess.dropNamed name = sess := by
  rw [dropNamed, h]

/-! ### Performing -/

theorem perform_eq_ok_iff {sess sess' : Session} {x : Action ε α} {r : Except ε α} :
    sess.perform x = .ok (r, sess') ↔
      ∃ s, x sess.store = some (r, s) ∧ sess' = { sess with store := s } := by
  rw [perform]
  rcases x sess.store with - | ⟨r', s⟩
  · simp
  · simp only [Except.ok.injEq, Prod.mk.injEq, Option.some.injEq]
    constructor
    · rintro ⟨rfl, rfl⟩
      exact ⟨s, ⟨rfl, rfl⟩, rfl⟩
    · rintro ⟨s', ⟨rfl, rfl⟩, rfl⟩
      exact ⟨rfl, rfl⟩

end Session

end SmallLisp
