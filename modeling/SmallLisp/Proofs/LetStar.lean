import Mathlib
import SmallLisp.Proofs.GivenOut
import SmallLisp.Proofs.Likeness.Renumber

/-!
# A `let*` is a call

A `let*` and a call of a procedure without parameters, whose body defines the names of the
`let*` one after the other, are evaluated on different paths. Both make a frame, bind the
names in it to the values of the same expressions in the same order, evaluate the same body
and finish the frame (`SmallLisp.letStar_is_called_lambda`).

The call makes one thing more: the closure that is called, before anything else is done.
Once it is made, what is left of the call is the `let*` itself, though a definition is one
level deeper than a binding (`SmallLisp.evaluates_calledLambda_iff`). So the identities of
all closures made since are greater by one (`SmallLisp.skipping`), and nothing else can be
different, since no program tells one identity from another.
-/

namespace SmallLisp

/-! ### The two forms -/

/-- **A name with the expression that it is to be bound to**, and the spans that the pieces
have when this is written out as a `define`. -/
structure Definition where
  /-- The name to be bound. -/
  name : String
  /-- The expression whose value it is bound to. -/
  value : Datum
  /-- Where the name stands. -/
  nameSpan : Span
  /-- Where the word `define` stands. -/
  keywordSpan : Span
  /-- Where the whole form stands. -/
  span : Span

namespace Definition

/-- The name and the expression, as they take turns in a `let*`. -/
def pair (b : Definition) : List Datum := [.symbol b.name b.nameSpan, b.value]

/-- `(define name value)`. -/
def form (b : Definition) : Datum :=
  .list [.symbol "define" b.keywordSpan, .symbol b.name b.nameSpan, b.value] b.span

/-- The binding that is made. -/
def binding (b : Definition) : String × Datum := (b.name, b.value)

end Definition

/-- `(let* (name value ...) body)`, with the spans of its keyword, of the list of bindings
and of the whole. -/
def letStarForm (keyword bindings whole : Span) (bs : List Definition) (body : Datum) : Datum :=
  .list [.symbol "let*" keyword, .list (bs.flatMap Definition.pair) bindings, body] whole

/-- `((lambda () (define name value) ... body))`, with the spans of its keyword, of the empty
list of parameters, of the procedure and of the call. -/
def calledLambda (keyword params procedure call : Span) (bs : List Definition) (body : Datum) :
    Datum :=
  .list [.list (.symbol "lambda" keyword :: .list [] params ::
    (bs.map Definition.form ++ [body])) procedure] call

/-! ### One level of the two -/

theorem bindingPairs_pairs (bs : List Definition) :
    SpecialForm.bindingPairs (bs.flatMap Definition.pair) = .ok (bs.map Definition.binding) := by
  induction bs with
  | nil => rfl
  | cons b bs ih =>
    rw [List.flatMap_cons, Definition.pair, List.cons_append, List.cons_append, List.nil_append,
      SpecialForm.bindingPairs, ih]
    rfl

theorem length_pairs_even (bs : List Definition) : (bs.flatMap Definition.pair).length % 2 = 0 := by
  induction bs with
  | nil => rfl
  | cons b bs ih =>
    rw [List.flatMap_cons, List.length_append, Definition.pair, List.length_cons, List.length_cons,
      List.length_nil]
    omega

section Level

variable (policy : FramePolicy) (depth : Nat) {ks ls ps ws : Span} (f : FrameId)
  (bs : List Definition) (body : Datum)

/-- A special form whose operands are accepted is evaluated. -/
theorem eval_of_ofOperands {d : Datum} {ds : List Datum} {span : Span} {k : Keyword}
    {form : SpecialForm} (hk : d.keyword? = some k)
    (h : SpecialForm.ofOperands k ds span = .ok form) :
    eval policy (depth + 1) (.list (d :: ds) span) f =
      evalForm policy (eval policy depth) f span form := by
  rw [eval_succ, evalStep, hk]
  change Action.ofExcept (SpecialForm.ofOperands k ds span) >>= _ = _
  rw [h]
  rfl

theorem eval_define (b : Definition) (g : FrameId) :
    eval policy (depth + 1) b.form g = (do
      let v ← eval policy depth b.value g
      Action.change (·.set g b.name v)
      return v) := by
  have hk : (Datum.symbol "define" b.keywordSpan).keyword? = some .define :=
    Keyword.ofName?_name .define
  have hform : SpecialForm.ofOperands .define [.symbol b.name b.nameSpan, b.value] b.span =
      .ok (.define b.name b.value) := rfl
  rw [Definition.form, eval_of_ofOperands policy depth g hk hform,
    evalForm]

/-- **What a `let*` does in its frame.** -/
theorem eval_letStarForm :
    eval policy (depth + 1) (letStarForm ks ls ws bs body) f = withFrame policy f [] (fun g => do
      evalBindings (eval policy depth) g (bs.map Definition.binding)
      eval policy depth body g) := by
  have hk : (Datum.symbol "let*" ks).keyword? = some .letStar := Keyword.ofName?_name .letStar
  have hform : SpecialForm.ofOperands .letStar [.list (bs.flatMap Definition.pair) ls, body] ws =
      .ok (.letStar (bs.map Definition.binding) body) := by
    rw [SpecialForm.ofOperands, SpecialForm.ofLetStar, if_pos (length_pairs_even bs),
      bindingPairs_pairs]
    rfl
  rw [letStarForm, eval_of_ofOperands policy depth f hk hform,
    evalForm]

/-- **What the body of the procedure does in the frame of the call**: definitions bind their
names, and what they give is dropped. -/
theorem evalBody_definitions (g : FrameId) (result : Datum) :
    evalBody (eval policy (depth + 1)) g result (bs.map Definition.form ++ [body]) = (do
      evalBindings (eval policy depth) g (bs.map Definition.binding)
      eval policy (depth + 1) body g) := by
  induction bs generalizing result with
  | nil => exact bind_pure _
  | cons b bs ih =>
    rw [List.map_cons, List.cons_append, evalBody, eval_define, List.map_cons, Definition.binding,
      evalBindings]
    simp only [bind_assoc, pure_bind, ih]

/-- The procedure is made, with the next identity. -/
theorem eval_lambda (s : Store) :
    eval policy (depth + 1) (.list (.symbol "lambda" ks :: .list [] ls ::
        (bs.map Definition.form ++ [body])) ps) f s =
      some (.ok (.closure s.nextClosure [] (bs.map Definition.form ++ [body]) f ps),
        s.addClosure.2) := by
  have hk : (Datum.symbol "lambda" ks).keyword? = some .lambda := Keyword.ofName?_name .lambda
  have hform :
      SpecialForm.ofOperands .lambda (.list [] ls :: (bs.map Definition.form ++ [body])) ps =
        .ok (.lambda [] (bs.map Definition.form ++ [body])) := by
    obtain ⟨d, ds, hds⟩ : ∃ d ds, bs.map Definition.form ++ [body] = d :: ds :=
      List.exists_cons_of_ne_nil (by simp)
    rw [hds]
    rfl
  rw [eval_of_ofOperands policy depth f hk hform]
  rfl

/-- **What the call does** once the procedure is made: the same, but for the depth of the
body. -/
theorem eval_calledLambda (s : Store) :
    eval policy (depth + 2) (calledLambda ks ls ps ws bs body) f s =
      withFrame policy f [] (fun g => do
        evalBindings (eval policy depth) g (bs.map Definition.binding)
        eval policy (depth + 1) body g) s.addClosure.2 := by
  simp only [← evalBody_definitions policy depth bs body _ (.boolean false ws)]
  rw [calledLambda, eval_succ]
  change (evalElements (eval policy (depth + 1)) f _ >>= _ : Action EvalError Datum) s = _
  rw [Action.bind_apply, evalElements, Action.bind_apply, eval_lambda]
  rfl

end Level

/-- **Once the procedure is made, what is left of the call is the `let*`.** -/
theorem evaluates_calledLambda_iff {policy : FramePolicy} {ks ls ws ks' ls' ps' ws' : Span}
    {f : FrameId} {bs : List Definition} {body : Datum} {s t : Store}
    {r : Except EvalError Datum} :
    Evaluates policy s (calledLambda ks' ls' ps' ws' bs body) f r t ↔
      Evaluates policy s.addClosure.2 (letStarForm ks ls ws bs body) f r t := by
  constructor
  · rintro ⟨depth, h⟩
    have hmore := eval_mono policy (Nat.le_add_right depth 2) _ f h
    rw [eval_calledLambda] at hmore
    refine ⟨depth + 2, ?_⟩
    rw [eval_letStarForm]
    -- the bindings may take one level more
    refine withFrame_below f [] (fun g => Action.Below.bind ?_ fun _ => .refl _) hmore
    exact evalBindings_below (eval_mono policy (Nat.le_succ depth)) g _
  · rintro ⟨depth, h⟩
    have hmore := eval_mono policy (Nat.le_succ depth) _ f h
    rw [eval_letStarForm] at hmore
    refine ⟨depth + 2, ?_⟩
    rw [eval_calledLambda]
    -- here it is the body that may take one level more
    refine withFrame_below f [] (fun g => Action.Below.bind (.refl _) fun _ => ?_) hmore
    exact eval_mono policy (Nat.le_succ depth) body g

/-! ### One identity more -/

/-- The numbers from `n` on, moved up by one. -/
def skipping (n i : Nat) : Nat := if i < n then i else i + 1

/-- The comparison of an evaluation with one that has given out one identity more before it
begins. -/
def Comparison.skipping (policy : FramePolicy) (n : Nat) : Comparison :=
  .fromSame policy n fun i j => j = SmallLisp.skipping n i

/-- A store and the same store with one identity more given out. -/
theorem Paired.of_addClosure {policy : FramePolicy} {s : Store} (hs : s.IdentitiesGivenOut) :
    Paired (.skipping policy s.nextClosure) (.givenOut s.nextClosure) s s.addClosure.2 := by
  refine .of_givenOut hs rfl (Nat.le_succ _) (fun i hi => (if_pos hi).symm) fun k => ?_
  change s.nextClosure + 1 + k = SmallLisp.skipping s.nextClosure (s.nextClosure + k)
  rw [SmallLisp.skipping, if_neg (by omega)]
  omega

theorem Pairing.givenOut_le_renumbering_id (n : Nat) : Pairing.givenOut n ≤ .renumbering id :=
  ⟨fun _ _ h => h, fun _ _ h => h.1.symm⟩

/-! ### The theorem -/

theorem identities_letStarForm {ks ls ws : Span} {bs : List Definition} {body : Datum} {n : Nat}
    (hbs : ∀ b ∈ bs, ∀ i ∈ b.value.identities, i < n) (hbody : ∀ i ∈ body.identities, i < n) :
    ∀ i ∈ (letStarForm ks ls ws bs body).identities, i < n := by
  intro i hi
  obtain ⟨d, hd, hid⟩ := Datum.mem_identitiesOfAll.mp hi
  simp only [List.mem_cons, List.not_mem_nil, or_false] at hd
  rcases hd with rfl | rfl | rfl
  · cases hid
  · obtain ⟨e, he, hie⟩ := Datum.mem_identitiesOfAll.mp hid
    obtain ⟨b, hb, he⟩ := List.mem_flatMap.mp he
    simp only [Definition.pair, List.mem_cons, List.not_mem_nil, or_false] at he
    rcases he with rfl | rfl
    · cases hie
    · exact hbs b hb i hie
  · exact hbody i hid

/-- **The ends of an evaluation and of one that has given out one identity more.** -/
theorem Correspondence.EndsAlike.eq_skipping {policy : FramePolicy} {n : Nat} {w : Pairing}
    {r r' : Except EvalError Datum} {t t' : Store}
    (h : (Paired.correspondence (.skipping policy n)).EndsAlike w
      (Paired.correspondence (.skipping policy n)).Value (r, t) (r', t')) :
    r' = renumberResult (SmallLisp.skipping n) r ∧ t' = t.renumber (SmallLisp.skipping n) ∧
      ∀ e, r = .error e ↔ r' = .error e := by
  obtain ⟨w', -, hfits, hresult⟩ := h
  have hspan : ∀ a b, Terms.exact.span a b → a = b := fun _ _ h => h
  have hlimit : w' ≤ .renumbering (SmallLisp.skipping n) := hfits.le_limit
  refine ⟨hresult.eq_renumberResult hspan (hfits.base_le.trans hlimit) hlimit,
    hfits.eq_renumber hspan (fun _ => rfl) rfl, fun e => ?_⟩
  cases hresult with
  | ok _ => exact iff_of_false nofun nofun
  -- an error is about the program, which has no closures but those given out before
  | @error e₁ e₂ he =>
    have heq : e₂ = e₁ := by
      rw [he.eq_renumber hspan (Pairing.givenOut_le_renumbering_id n), EvalError.renumber_id]
    rw [heq]

theorem frame_eq_of_letStarForm {policy : FramePolicy} {ks ls ws : Span} {bs : List Definition}
    {body : Datum} {f : FrameId} {s t : Store} {r : Except EvalError Datum}
    (h : Evaluates policy s (letStarForm ks ls ws bs body) f r t) {g : FrameId}
    (hg : g < s.frames.size) : t.frames[g]? = s.frames[g]? := by
  obtain ⟨depth, h⟩ := h
  exact (eval_letStar_keeps_extends policy depth ks _ ws f h).frame_eq g hg

/-- **A `let*` is a call of a procedure without parameters that defines the names.** In a
store, and for expressions, whose closures have identities that have been given out
(`SmallLisp.Reaches.identitiesGivenOut`), the two end together or not at all. The call ends
with the result and the store of the `let*`, but for the identities of the closures made
since, which are greater by one; an error is the same altogether. Neither of them changes a
frame that was there, and the frame that both make is cleared by both or by neither. -/
theorem letStar_is_called_lambda (policy : FramePolicy) {s : Store} (hs : s.IdentitiesGivenOut)
    {bs : List Definition} {body : Datum}
    (hbs : ∀ b ∈ bs, ∀ i ∈ b.value.identities, i < s.nextClosure)
    (hbody : ∀ i ∈ body.identities, i < s.nextClosure) (f : FrameId)
    (ks ls ws ks' ls' ps' ws' : Span) :
    (∀ r' t', Evaluates policy s (calledLambda ks' ls' ps' ws' bs body) f r' t' ↔
      ∃ r t, Evaluates policy s (letStarForm ks ls ws bs body) f r t ∧
        r' = renumberResult (skipping s.nextClosure) r ∧
        t' = t.renumber (skipping s.nextClosure)) ∧
    ∀ r t r' t', Evaluates policy s (letStarForm ks ls ws bs body) f r t →
      Evaluates policy s (calledLambda ks' ls' ps' ws' bs body) f r' t' →
      (∀ e, r = .error e ↔ r' = .error e) ∧
      (∀ g < s.frames.size, t.frames[g]? = s.frames[g]? ∧ t'.frames[g]? = s.frames[g]?) ∧
      escapes r' = escapes r ∧
      (t'.bindings s.frames.size = .empty ↔ t.bindings s.frames.size = .empty) := by
  let C := Paired.correspondence (.skipping policy s.nextClosure)
  have hfits : C.Fits (.givenOut s.nextClosure) s s.addClosure.2 := .of_addClosure hs
  have hcode : C.Code (letStarForm ks ls ws bs body) (letStarForm ks ls ws bs body) :=
    Terms.code_exact_givenOut (identities_letStarForm hbs hbody)
  have hboth := C.evaluates_iff (f := f) (g := f) hfits hcode rfl
  have hends {r r' t t'} (hl : Evaluates policy s (letStarForm ks ls ws bs body) f r t)
      (hr : Evaluates policy s.addClosure.2 (letStarForm ks ls ws bs body) f r' t') :=
    (C.evaluates_endsAlike hfits hcode rfl hl hr).eq_skipping
  have hcall (r t) : Evaluates policy s (calledLambda ks' ls' ps' ws' bs body) f r t ↔
      Evaluates policy s.addClosure.2 (letStarForm ks ls ws bs body) f r t :=
    evaluates_calledLambda_iff
  simp only [hcall]
  constructor
  · intro r' t'
    constructor
    · intro hr
      obtain ⟨r, t, hl⟩ := hboth.mpr ⟨r', t', hr⟩
      obtain ⟨hresult, hstore, -⟩ := hends hl hr
      exact ⟨r, t, hl, hresult, hstore⟩
    · rintro ⟨r, t, hl, rfl, rfl⟩
      obtain ⟨r', t', hr⟩ := hboth.mp ⟨r, t, hl⟩
      obtain ⟨rfl, rfl, -⟩ := hends hl hr
      exact hr
  · intro r t r' t' hl hr
    obtain ⟨rfl, rfl, herror⟩ := hends hl hr
    refine ⟨herror, fun g hg => ⟨?_, ?_⟩, escapes_renumberResult _ r, ?_⟩
    · exact frame_eq_of_letStarForm hl hg
    · exact frame_eq_of_letStarForm hr hg
    · rw [Store.bindings_renumber, Bindings.renumber_eq_empty_iff]

/-- In a new interpreter, `(let* (k t g (lambda (a) (if a (g nil) k)) k nil) (k (g t) g))`
binds `k` again after a closure that refers to it, and to itself: applied, the closure calls
itself and finds the later value. The result holds the closure, so the frame is kept; in the
call, the closure is the second one that is made. -/
theorem closure_finds_itself_and_later_binding :
    let n := Span.none
    let yes : Datum := .boolean true n
    let no : Datum := .boolean false n
    let k : Datum := .symbol "k" n
    let g : Datum := .symbol "g" n
    let a : Datum := .symbol "a" n
    let again : Datum := .list [.symbol "if" n, a, .list [g, no] n, k] n
    let bs : List Definition := [⟨"k", yes, n, n, n⟩,
      ⟨"g", .list [.symbol "lambda" n, .list [a] n, again] n, n, n, n⟩, ⟨"k", no, n, n, n⟩]
    let body : Datum := .list [k, .list [g, yes] n, g] n
    let s : Store := (Interpreter.new .empty).2
    let found (i : Nat) : Datum := .list [no, no, .closure i ["a"] [again] 1 n] n
    ∃ t t', Evaluates .clearFinished s (letStarForm n n n bs body) 0 (.ok (found 0)) t ∧
      Evaluates .clearFinished s (calledLambda n n n n bs body) 0 (.ok (found 1)) t' ∧
      t' = t.renumber (skipping 0) ∧ t.bindings 1 ≠ .empty := by
  intro n yes no k g a again bs body s found
  let kept : Frame := ⟨some 0, ⟨[("k", no), ("g", .closure 0 ["a"] [again] 1 n)]⟩⟩
  let t : Store := ⟨((s.frames.push kept).push ⟨some 1, .empty⟩).push ⟨some 1, .empty⟩, 1⟩
  have hl : Evaluates .clearFinished s (letStarForm n n n bs body) 0 (.ok (found 0)) t :=
    ⟨10, by unfold t kept s bs body found again k g a yes no n; cbv⟩
  have hreached : Reaches .clearFinished [] s := .new
  have hs : s.IdentitiesGivenOut := hreached.identitiesGivenOut
  have hbs : ∀ b ∈ bs, ∀ i ∈ b.value.identities, i < 0 := by
    unfold bs again k g a yes no n
    decide
  have hbody : ∀ i ∈ body.identities, i < 0 := by
    unfold body k g yes n
    decide
  obtain ⟨hsame, -⟩ := letStar_is_called_lambda .clearFinished hs hbs hbody 0 n n n n n n n
  have hr := (hsame (.ok (found 1)) _).mpr ⟨_, t, hl, rfl, rfl⟩
  refine ⟨t, _, hl, hr, rfl, fun hempty => ?_⟩
  cases hempty

end SmallLisp
