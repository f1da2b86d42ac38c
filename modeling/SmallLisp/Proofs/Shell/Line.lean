import SmallLisp.Proofs.Session.Basic
import SmallLisp.Shell.Basic

/-!
# What comes of a line

A line is evaluated in two ways. An interpreter runs it and answers with all its values or with
an error; the shell shows the values one by one as they come, and reports the error. Both stop at
the first expression that fails. What the line comes to can be said without either
(`SmallLisp.ComesTo`): the expressions in front of the one that fails have values, each in the
store that the one before it has left, and the last store is the one that the failure has left.

* `SmallLisp.evaluateEach_cons_eq_some_iff` – **one expression**: it fails, or the others follow;
* `SmallLisp.exists_evaluateEach_iff` – all the expressions of a line;
* `SmallLisp.line_agrees_with_runAll` – **the shell shows what the interpreter answers**, and a
  line that cannot be read does nothing.
-/

namespace SmallLisp

variable {policy : FramePolicy} {depth : Nat} {i : Interpreter} {s t : Store}

/-! ### Values in order -/

/-- **Expressions have values in a frame**, each in the store that the one before it has left. -/
inductive EvaluatesEach (policy : FramePolicy) (f : FrameId) :
    Store → List Datum → List Datum → Store → Prop
  | nil (s : Store) : EvaluatesEach policy f s [] [] s
  | cons {s u t : Store} {d v : Datum} {ds vs : List Datum}
    (h : Evaluates policy s d f (.ok v) u) (hrest : EvaluatesEach policy f u ds vs t) :
    EvaluatesEach policy f s (d :: ds) (v :: vs) t

/-- **What a line comes to** in a store: the values in front of the first failure, the failure if
there is one, and the store that is left. -/
inductive ComesTo (policy : FramePolicy) (i : Interpreter) (line : String) (s : Store) :
    LineResult → Store → Prop
  /-- The line cannot be read. -/
  | unread {e : ReadError} (hread : readProgram line = .error e) :
    ComesTo policy i line s ⟨[], some (.read e)⟩ s
  /-- Every expression has a value. -/
  | values {ds vs : List Datum} {t : Store} (hread : readProgram line = .ok ds)
    (hvalues : EvaluatesEach policy i.root s ds vs t) : ComesTo policy i line s ⟨vs, none⟩ t
  /-- An expression fails, and those in front of it have values. -/
  | fails {before after vs : List Datum} {d : Datum} {u t : Store} {e : EvalError}
    (hread : readProgram line = .ok (before ++ d :: after))
    (hvalues : EvaluatesEach policy i.root s before vs u)
    (hfails : Evaluates policy u d i.root (.error e) t) :
    ComesTo policy i line s ⟨vs, some (.eval e)⟩ t

/-! ### Up to the first failure -/

/-- **One expression of a line**: it fails, and the others are not evaluated, or it has a value and
the others are evaluated in the store that it leaves. -/
theorem evaluateEach_cons_eq_some_iff {d : Datum} {ds : List Datum} {r : LineResult} :
    evaluateEach policy depth i (d :: ds) s = some (r, t) ↔
      (∃ e, eval policy depth d i.root s = some (.error e, t) ∧ r = ⟨[], some (.eval e)⟩) ∨
      ∃ v u r', eval policy depth d i.root s = some (.ok v, u) ∧
        evaluateEach policy depth i ds u = some (r', t) ∧ r = ⟨v :: r'.values, r'.failure⟩ := by
  rw [evaluateEach, Interpreter.evaluate, Action.mapError]
  rcases eval policy depth d i.root s with - | ⟨e | v, u⟩
  · constructor
    · intro h
      cases h
    · rintro (⟨e, hd, -⟩ | ⟨v, u, r', hd, -⟩) <;> cases hd
  · constructor
    · intro h
      obtain ⟨rfl, rfl⟩ := Prod.mk.inj (Option.some.inj h)
      exact .inl ⟨e, rfl, rfl⟩
    · rintro (⟨e, hd, rfl⟩ | ⟨v, u, r', hd, -⟩) <;> cases hd
      rfl
  · dsimp only
    constructor
    · intro h
      rcases hrest : evaluateEach policy depth i ds u with - | ⟨r', u'⟩ <;> rw [hrest] at h
      · cases h
      · obtain ⟨rfl, rfl⟩ := Prod.mk.inj (Option.some.inj h)
        exact .inr ⟨v, u, r', rfl, hrest, rfl⟩
    · rintro (⟨e, hd, -⟩ | ⟨v, u, r', hd, hrest, rfl⟩) <;> cases hd
      rw [hrest]

/-- A greater depth changes nothing for expressions whose evaluation ends. -/
theorem evaluateEach_mono {m n : Nat} (hmn : m ≤ n) {ds : List Datum} {r : LineResult}
    (h : evaluateEach policy m i ds s = some (r, t)) :
    evaluateEach policy n i ds s = some (r, t) := by
  induction ds generalizing s r with
  | nil => exact h
  | cons d ds ih =>
    rw [evaluateEach_cons_eq_some_iff] at h ⊢
    rcases h with ⟨e, hd, rfl⟩ | ⟨v, u, r', hd, hrest, rfl⟩
    · exact .inl ⟨e, eval_mono policy hmn d i.root hd, rfl⟩
    · exact .inr ⟨v, u, r', eval_mono policy hmn d i.root hd, ih hrest, rfl⟩

/-- Values in front of what is evaluated stand in front of what it comes to. -/
theorem EvaluatesEach.append {u : Store} {before vs : List Datum}
    (h : EvaluatesEach policy i.root s before vs u) {ds : List Datum} {r : LineResult}
    (hds : ∃ depth, evaluateEach policy depth i ds u = some (r, t)) :
    ∃ depth, evaluateEach policy depth i (before ++ ds) s =
      some (⟨vs ++ r.values, r.failure⟩, t) := by
  induction h with
  | nil => exact hds
  | cons hd _ ih =>
    obtain ⟨m, hd⟩ := hd
    obtain ⟨n, hrest⟩ := ih hds
    have hd := eval_mono policy (Nat.le_max_left m n) _ i.root hd
    have hrest := evaluateEach_mono (Nat.le_max_right m n) hrest
    exact ⟨max m n, evaluateEach_cons_eq_some_iff.mpr (.inr ⟨_, _, _, hd, hrest, rfl⟩)⟩

/-- **The expressions of a line**, however many: all of them have values, or there is one that
fails and those in front of it have values. -/
theorem exists_evaluateEach_iff {ds : List Datum} {r : LineResult} :
    (∃ depth, evaluateEach policy depth i ds s = some (r, t)) ↔
      (EvaluatesEach policy i.root s ds r.values t ∧ r.failure = none) ∨
      ∃ before d after u e, ds = before ++ d :: after ∧
        EvaluatesEach policy i.root s before r.values u ∧
        Evaluates policy u d i.root (.error e) t ∧ r.failure = some (.eval e) := by
  obtain ⟨vs, failure⟩ := r
  constructor
  · rintro ⟨depth, h⟩
    induction ds generalizing s vs with
    | nil =>
      obtain ⟨hr, rfl⟩ := Prod.mk.inj (Option.some.inj h)
      obtain ⟨rfl, rfl⟩ := LineResult.mk.inj hr
      exact .inl ⟨.nil s, rfl⟩
    | cons d ds ih =>
      rcases evaluateEach_cons_eq_some_iff.mp h with ⟨e, hd, hr⟩ | ⟨v, u, r, hd, hrest, hr⟩
      · obtain ⟨rfl, rfl⟩ := LineResult.mk.inj hr
        exact .inr ⟨[], d, ds, s, e, rfl, .nil s, ⟨depth, hd⟩, rfl⟩
      · obtain ⟨rfl, rfl⟩ := LineResult.mk.inj hr
        rcases ih r.values hrest with ⟨hvalues, hnone⟩ |
          ⟨before, d', after, u', e, rfl, hvalues, hfails⟩
        · exact .inl ⟨.cons ⟨depth, hd⟩ hvalues, hnone⟩
        · exact .inr ⟨d :: before, d', after, u', e, rfl, .cons ⟨depth, hd⟩ hvalues, hfails⟩
  · rintro (⟨hvalues, rfl⟩ | ⟨before, d, after, u, e, rfl, hvalues, ⟨depth, hfails⟩, rfl⟩)
    · have hnil : evaluateEach policy 0 i [] t = some (⟨[], none⟩, t) := rfl
      have hall := hvalues.append ⟨0, hnil⟩
      rwa [List.append_nil, List.append_nil] at hall
    · have hstop : evaluateEach policy depth i (d :: after) u = some (⟨[], some (.eval e)⟩, t) :=
        evaluateEach_cons_eq_some_iff.mpr (.inl ⟨e, hfails, rfl⟩)
      have hall := hvalues.append ⟨depth, hstop⟩
      rwa [List.append_nil] at hall

theorem exists_evaluateLine_iff {line : String} {r : LineResult} :
    (∃ depth, evaluateLine policy depth i line s = some (r, t)) ↔ ComesTo policy i line s r t := by
  simp only [evaluateLine]
  rcases hread : readProgram line with e | ds
  · constructor
    · rintro ⟨depth, h⟩
      obtain ⟨rfl, rfl⟩ := Prod.mk.inj (Option.some.inj h)
      exact .unread hread
    · rintro (⟨he⟩ | ⟨hok⟩ | ⟨hok⟩)
      · obtain rfl := Except.error.inj (hread.symm.trans he)
        exact ⟨0, rfl⟩
      · cases hread.symm.trans hok
      · cases hread.symm.trans hok
  · rw [exists_evaluateEach_iff]
    obtain ⟨vs, failure⟩ := r
    constructor
    · rintro (⟨hvalues, rfl⟩ | ⟨before, d, after, u, e, rfl, hvalues, hfails, rfl⟩)
      · exact .values hread hvalues
      · exact .fails hread hvalues hfails
    · rintro (⟨he⟩ | ⟨hok, hvalues⟩ | ⟨hok, hvalues, hfails⟩)
      · cases hread.symm.trans he
      · obtain rfl := Except.ok.inj (hread.symm.trans hok)
        exact .inl ⟨hvalues, rfl⟩
      · obtain rfl := Except.ok.inj (hread.symm.trans hok)
        exact .inr ⟨_, _, _, _, _, rfl, hvalues, hfails, rfl⟩

/-! ### Answers -/

/-- What an interpreter answers to a line. -/
def LineResult.answer (r : LineResult) : Except Error (List Datum) :=
  match r.failure with
  | some e => .error e
  | none => .ok r.values

theorem evaluateAll_eq_map_evaluateEach (ds : List Datum) :
    i.evaluateAll policy depth ds s =
      (evaluateEach policy depth i ds s).map fun o => (o.1.answer, o.2) := by
  induction ds generalizing s with
  | nil => rfl
  | cons d ds ih =>
    rw [Interpreter.evaluateAll, evaluateEach, Action.bind_apply]
    rcases i.evaluate policy depth d s with - | ⟨e | v, u⟩
    · rfl
    · rfl
    · dsimp only
      rw [Action.bind_apply, ih]
      rcases evaluateEach policy depth i ds u with - | ⟨⟨vs, - | e⟩, u'⟩ <;> rfl

/-- **The interpreter answers what the shell shows**, and leaves the same store. -/
theorem runAll_eq_map_evaluateLine (line : String) :
    i.runAll policy depth line s =
      (evaluateLine policy depth i line s).map fun o => (o.1.answer, o.2) := by
  rw [evaluateLine]
  rcases hread : readProgram line with e | ds
  · rw [i.runAll_of_error hread]
    rfl
  · rw [i.runAll_of_ok hread, ← i.evaluateAll_eq, evaluateAll_eq_map_evaluateEach]

/-! ### What is written -/

/-- Texts written one after the other, each on a line of its own. -/
theorem toList_foldl_lines {α : Type} (write : α → String) (xs : List α) (acc : String) :
    (xs.foldl (fun acc x => acc ++ write x ++ "\n") acc).toList =
      acc.toList ++ xs.flatMap fun x => (write x).toList ++ ['\n'] := by
  induction xs generalizing acc with
  | nil => simp
  | cons x xs ih =>
    rw [List.foldl_cons, ih]
    simp

/-- **Every value is written, on a line of its own.** -/
theorem LineResult.toList_out_output (r : LineResult) (line : String) :
    (r.output line).out.toList = r.values.flatMap fun v => v.render.toList ++ ['\n'] :=
  toList_foldl_lines Datum.render r.values ""

/-- **A report begins with its headline**, wherever it points. -/
theorem Report.exists_rows_eq_cons (r : Report) (text : String) :
    ∃ rows, r.rows text = ("Error: " ++ r.headline) :: rows := by
  unfold Report.rows
  dsimp only
  split
  · exact ⟨_, rfl⟩
  · exact ⟨[], rfl⟩

/-- The first line of a report is its headline. -/
theorem Report.exists_toList_render_eq (r : Report) (text : String) :
    ∃ rest, (r.render text).toList = ("Error: " ++ r.headline).toList ++ '\n' :: rest := by
  obtain ⟨rows, hrows⟩ := r.exists_rows_eq_cons text
  have hrender := toList_foldl_lines id (r.rows text) ""
  rw [hrows, List.flatMap_cons, id_eq, String.toList_empty, List.nil_append] at hrender
  rw [Report.render, hrows]
  exact ⟨_, hrender.trans (by rw [List.append_assoc, List.singleton_append])⟩

/-- What is reported of a line: its failure, or nothing. -/
theorem LineResult.err_output (r : LineResult) (line : String) :
    (r.output line).err = r.failure.elim "" fun e => (e.report line).render line := by
  unfold LineResult.output
  cases r.failure <;> rfl

/-- **A line in the shell and in an interpreter.** The shell evaluates the expressions of a line
up to the first that fails, and the interpreter answers with the values or the failure that it
shows, and leaves the same store. Every value is written as it prints, and a failure is reported,
with what is wrong on the first line of the report. A run over a single line is this in a new
interpreter, and goes well if the interpreter has no error to answer with. A line that cannot be
read does nothing, wherever it goes wrong: nothing is evaluated or written, also if only its first
expression is asked for. -/
theorem line_agrees_with_runAll (policy : FramePolicy) (i : Interpreter) (line : String)
    (s : Store) :
    (∀ r t, (∃ depth, evaluateLine policy depth i line s = some (r, t)) ↔
      ComesTo policy i line s r t) ∧
    (∀ depth, i.runAll policy depth line s =
      (evaluateLine policy depth i line s).map fun o => (o.1.answer, o.2)) ∧
    (∀ r : LineResult,
      (r.output line).out.toList = (r.values.flatMap fun v => v.render.toList ++ ['\n']) ∧
      (r.output line).err = (r.failure.elim "" fun e => (e.report line).render line) ∧
      ∀ e, r.failure = some e → ∃ rest, (r.output line).err.toList =
        ("Error: " ++ (e.report line).headline).toList ++ '\n' :: rest) ∧
    (∀ depth, runLine policy depth line =
      (evaluateLine policy depth (Interpreter.new .empty).1 line (Interpreter.new .empty).2).map
        fun o => (o.1.output line, o.1.answer.isOk)) ∧
    ∀ e, readProgram line = .error e → ∀ depth,
      evaluateLine policy depth i line s = some (⟨[], some (.read e)⟩, s) ∧
      i.runAll policy depth line s = some (.error (.read e), s) ∧
      i.run policy depth line s = some (.error (.read e), s) := by
  refine ⟨fun r t => exists_evaluateLine_iff, fun depth => runAll_eq_map_evaluateLine line,
    fun r => ⟨r.toList_out_output line, r.err_output line, fun e he => ?_⟩, fun depth => ?_,
    fun e hread depth => ⟨?_, ?_, ?_⟩⟩
  · rw [r.err_output, he]
    exact (e.report line).exists_toList_render_eq line
  · rw [runLine]
    refine congrArg (Option.map · _) (funext fun o => ?_)
    obtain ⟨⟨vs, - | e⟩, t⟩ := o <;> rfl
  · rw [evaluateLine, hread]
  · rw [i.runAll_of_error hread]
    rfl
  · have hfirst : readFirst line = .error e := by rw [readFirst, hread]
    rw [i.run_of_error hfirst]
    rfl

end SmallLisp
