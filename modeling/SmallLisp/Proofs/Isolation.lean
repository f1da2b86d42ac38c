import Mathlib
import SmallLisp.Proofs.Correspondence.Eval
import SmallLisp.Proofs.Correspondence.Paired
import SmallLisp.Proofs.Likeness.Anonymous
import SmallLisp.Proofs.Session.Basic

/-!
# Interpreters share nothing

Two interpreters live in one store, and the steps of the one make frames and closures in
between those of the other. Still each of them gives the answers that it would give
alone (`SmallLisp.interpreters_share_nothing`).

The session of both is compared with a session of one of them. What stands for what is a
pairing (`SmallLisp.Paired`) in which the root of the other interpreter does not occur.
A step of the interpreter itself is made on both sides, and adds pairs. A step of the
other one is made on the left only; it writes the root of the other interpreter and new
frames, none of which is paired. All that programs are made of was read from texts, so
the pairing to start with can be empty.
-/

namespace SmallLisp

variable {policy : FramePolicy} {depth : Nat} {others others' : Set FrameId} {w : Pairing}
  {s s' t t' : Store} {α : Type}

/-! ### Keeping out of each other's way -/

/-- The comparison of an interpreter among others with the same interpreter alone. The
given frames are those of the others. -/
def Comparison.apart (policy : FramePolicy) (others : Set FrameId) : Comparison :=
  ⟨.exact, .empty, ⟨fun f _ => f ∉ others, fun _ _ => True⟩, policy, policy⟩

namespace Tracks

variable {limit limit' R : Nat → Nat → Prop} {m m' n : Nat}

/-- With nothing paired, any numbers may have been given out. -/
theorem nothing (hahead : ∀ k, limit (m + k) (n + k)) :
    Tracks (fun _ _ => False) limit (fun _ _ => False) m n where
  base_le _ _ h := h
  le_limit _ _ h := absurd h id
  inj _ _ _ _ h := absurd h id
  place _ _ h := absurd h id
  ahead := hahead

/-- Giving out numbers on the left only, which are not to be paired. -/
theorem left_ahead (h : Tracks (fun _ _ => False) limit R m n) (hle : m ≤ m')
    (hlimit : ∀ a b, R a b → limit' a b) (hahead : ∀ k, limit' (m' + k) (n + k)) :
    Tracks (fun _ _ => False) limit' R m' n where
  base_le := h.base_le
  le_limit := hlimit
  inj := h.inj
  place a b hab := by
    have hlt := h.lt_of_base_lt (fun _ _ h => absurd h id) hab
    exact Or.inl ⟨hlt.1.trans_le hle, hlt.2⟩
  ahead := hahead

end Tracks

/-- No number to come is that of a frame which is there. -/
theorem notMem_of_forall_lt {n : Nat} (h : ∀ f ∈ others, f < n) (k : Nat) : n + k ∉ others :=
  fun hk => absurd (h _ hk) (Nat.not_lt.mpr (Nat.le_add_right n k))

namespace Paired

/-- With nothing paired, any two stores will do. -/
theorem apart_empty (hothers : ∀ f ∈ others, f < s.frames.size) :
    Paired (.apart policy others) .empty s t where
  frames := .nothing (notMem_of_forall_lt hothers)
  closures := .nothing fun _ => trivial
  outer _ _ h := absurd h id
  bindings _ _ h := absurd h id
  settled h := absurd rfl h

theorem apart_lt (h : Paired (.apart policy others) w s t) {f g : FrameId} (hfg : w.frames f g) :
    f < s.frames.size :=
  (h.frames.lt_of_base_lt (fun _ _ h => absurd h id) hfg).1

/-- **A change on the left that leaves paired frames alone** keeps stores paired. The
frames of the others may be told anew. -/
theorem apart_left (h : Paired (.apart policy others) w s t)
    (hothers : ∀ f g, w.frames f g → f ∉ others') (hthere : ∀ f ∈ others', f < s'.frames.size)
    (hsize : s.frames.size ≤ s'.frames.size) (hnext : s.nextClosure ≤ s'.nextClosure)
    (hframes : ∀ f g, w.frames f g → s'.frames[f]? = s.frames[f]?) :
    Paired (.apart policy others') w s' t where
  frames := h.frames.left_ahead hsize hothers (notMem_of_forall_lt hthere)
  closures := h.closures.left_ahead hnext h.closures.le_limit h.closures.ahead
  outer f g hfg := by
    rw [Store.outer?_eq_of_getElem?_eq (hframes f g hfg)]
    exact h.outer f g hfg
  bindings f g hfg := by
    rw [Store.bindings_eq_of_getElem?_eq (hframes f g hfg)]
    exact h.bindings f g hfg
  settled hne := absurd rfl hne

end Paired

/-! ### Sessions -/

namespace Session

/-- The interpreter that a step runs or gives up. -/
def Step.owner? : Step → Option String
  | .run interpreter _ _ => some interpreter
  | .runAll interpreter _ => some interpreter
  | .dropInterpreter interpreter => some interpreter
  | _ => none

/-- The steps of one interpreter, in order. -/
def stepsOf (interpreter : String) (sts : List Step) : List Step :=
  sts.filter fun st => st.owner? = some interpreter

/-- The answers to the steps of one interpreter, in order. -/
def answersTo (interpreter : String) (sts : List Step) (answers : List (Except Trouble Answer)) :
    List (Except Trouble Answer) :=
  ((sts.zip answers).filter fun e => e.1.owner? = some interpreter).map Prod.snd

/-- A session with two interpreters, made one after the other. -/
def startTwo (a b : String) : Session :=
  let (i, s) := Interpreter.new (start a).store
  { start a with store := s }.nameInterpreter b i

/-- **The left session has the interpreter `i` among others, the right one has it
alone.** In the left one `j` names an interpreter whose root is among the given frames,
if any. -/
structure Follows (policy : FramePolicy) (others : Set FrameId) (i j : String)
    (m o : Session) : Prop where
  own : ∃ w, Paired (.apart policy others) w m.store o.store ∧
    Option.Rel (fun I I' => w.frames I.root I'.root) (m.interpreters.lookup i)
      (o.interpreters.lookup i)
  other : ∀ J, m.interpreters.lookup j = some J → J.root ∈ others

/-- What a step of the interpreter comes to in both sessions: the same trouble, or
answers that look the same. -/
inductive LookAlike (policy : FramePolicy) (others : Set FrameId) (i j : String) :
    Except Trouble (Answer × Session) → Except Trouble (Answer × Session) → Prop
  | error (trouble : Trouble) : LookAlike policy others i j (.error trouble) (.error trouble)
  | ok {answer answer' : Answer} {m o : Session} (hseen : seen answer = seen answer')
    (h : Follows policy others i j m o) :
    LookAlike policy others i j (.ok (answer, m)) (.ok (answer', o))

/-- The answer to a step that gives a value or an error, and saves no more than
values. -/
structure Answers (reply : α → Reply) (F : Except Error α × Session → Answer × Session) : Prop where
  answer_eq : ∀ r sess, (F (r, sess)).1 = r.map reply
  store_eq : ∀ r sess, (F (r, sess)).2.store = sess.store
  interpreters_eq : ∀ r sess, (F (r, sess)).2.interpreters = sess.interpreters

theorem answers_answerDatum (name : Option String) :
    Answers .datum fun p => p.2.answerDatum name p.1 := by
  refine ⟨fun r sess => ?_, fun r sess => ?_, fun r sess => ?_⟩ <;>
    rcases r with e | d <;> cases name <;> rfl

theorem answers_data : Answers .data fun p => (p.1.map .data, p.2) :=
  ⟨fun _ _ => rfl, fun _ _ => rfl, fun _ _ => rfl⟩

namespace Follows

variable {i j : String} {m o : Session}

/-- Only the stores and the interpreters of the sessions matter. -/
theorem congr (h : Follows policy others i j m o) {m' o' : Session} (hm : m'.store = m.store)
    (hmi : m'.interpreters = m.interpreters) (ho : o'.store = o.store)
    (hoi : o'.interpreters = o.interpreters) : Follows policy others i j m' o' := by
  obtain ⟨hown, hother⟩ := h
  constructor
  · rwa [hm, hmi, ho, hoi]
  · rwa [hmi]

/-! ### Steps of the interpreter -/

/-- A text that cannot be read is answered by the same error. -/
theorem perform_fail (h : Follows policy others i j m o) {reply : α → Reply}
    {F : Except Error α × Session → Answer × Session} (hF : Answers reply F) (e : Error) :
    LookAlike policy others i j (m.perform (Action.fail e) >>= fun p => .ok (F p))
      (o.perform (Action.fail e) >>= fun p => .ok (F p)) := by
  refine .ok ?_ (h.congr (hF.store_eq _ _) (hF.interpreters_eq _ _) (hF.store_eq _ _)
    (hF.interpreters_eq _ _))
  rw [hF.answer_eq, hF.answer_eq]

/-- Evaluations that are alike are answered alike. -/
theorem perform_alike (h : Follows policy others i j m o)
    (hpaired : Paired (.apart policy others) w m.store o.store)
    (hroots : Option.Rel (fun I I' => w.frames I.root I'.root) (m.interpreters.lookup i)
      (o.interpreters.lookup i))
    {R : Pairing → α → α → Prop} {x y : Action EvalError α}
    (hxy : (Paired.correspondence (.apart policy others)).Alike w R x y) {reply : α → Reply}
    (hreply : ∀ w' a b, R w' a b → (reply a).seen = (reply b).seen)
    {F : Except Error α × Session → Answer × Session} (hF : Answers reply F) :
    LookAlike policy others i j (m.perform (x.mapError Error.eval) >>= fun p => .ok (F p))
      (o.perform (y.mapError Error.eval) >>= fun p => .ok (F p)) := by
  have hends := hxy hpaired
  rw [Session.perform, Session.perform, Action.mapError, Action.mapError]
  generalize x m.store = e at hends
  generalize y o.store = e' at hends
  cases hends with
  | none => exact .error .outOfDepth
  | @some e e' hend =>
    obtain ⟨r, s'⟩ := e
    obtain ⟨r', t'⟩ := e'
    obtain ⟨w', hw, hfits, hresult⟩ := hend
    -- The roots stay paired, since pairs are only added.
    have hroots' := optionRel_imp (fun I I' => Pairing.frames_of_le hw) hroots
    have hfollows : Follows policy others i j { m with store := s' } { o with store := t' } :=
      ⟨⟨w', hfits, hroots'⟩, h.other⟩
    have hnext : ∀ r r', Follows policy others i j (F (r, { m with store := s' })).2
        (F (r', { o with store := t' })).2 := fun r r' =>
      hfollows.congr (hF.store_eq r _) (hF.interpreters_eq r _) (hF.store_eq r' _)
        (hF.interpreters_eq r' _)
    cases hresult with
    | ok hv =>
      refine .ok ?_ (hnext _ _)
      rw [hF.answer_eq, hF.answer_eq]
      exact congrArg Except.ok (hreply w' _ _ hv)
    | error he =>
      refine .ok ?_ (hnext _ _)
      rw [hF.answer_eq, hF.answer_eq]
      exact congrArg Except.error (Terms.seen_error_eq he)

/-- The interpreter is found in both sessions or in neither. -/
theorem bind_own (h : Follows policy others i j m o)
    {F G : Interpreter → Except Trouble (Answer × Session)}
    (hFG : ∀ w I I', Paired (.apart policy others) w m.store o.store →
      m.interpreters.lookup i = some I → o.interpreters.lookup i = some I' →
      w.frames I.root I'.root → LookAlike policy others i j (F I) (G I')) :
    LookAlike policy others i j (named m.interpreters i >>= F) (named o.interpreters i >>= G) := by
  obtain ⟨w, hpaired, hroots⟩ := h.own
  rw [named, named]
  rcases hI : m.interpreters.lookup i with - | I <;>
    rcases hI' : o.interpreters.lookup i with - | I' <;> rw [hI, hI'] at hroots
  · exact .error _
  · cases hroots
  · cases hroots
  · cases hroots with
    | some hroot => exact hFG w I I' hpaired hI hI' hroot

theorem own_dropNamed (h : Follows policy others i j m o) (hij : i ≠ j) {I I' : Interpreter}
    (hpaired : Paired (.apart policy others) w m.store o.store)
    (hI : m.interpreters.lookup i = some I) (hI' : o.interpreters.lookup i = some I')
    (hroot : w.frames I.root I'.root) :
    Follows policy others i j (m.dropNamed i) (o.dropNamed i) := by
  rw [dropNamed, dropNamed, hI, hI']
  refine ⟨⟨w, hpaired.clear hroot, ?_⟩, fun J hJ => h.other J ?_⟩
  · rw [lookup_forget_self, lookup_forget_self]
    exact .none
  · rwa [lookup_forget_of_ne _ hij.symm] at hJ

/-- **A step of the interpreter is answered alike among others and alone.** -/
theorem own_step (h : Follows policy others i j m o) (depth : Nat) (hij : i ≠ j) {st : Step}
    (hst : st.owner? = some i) :
    LookAlike policy others i j (m.step policy depth st) (o.step policy depth st) := by
  let C := Paired.correspondence (.apart policy others)
  cases st with
  | run interpreter text save =>
    obtain rfl := Option.some.inj hst
    refine h.bind_own fun w I I' hpaired hI hI' hroot => ?_
    rcases hread : readFirst text with e | d
    · rw [I.run_of_error hread, I'.run_of_error hread]
      exact h.perform_fail (answers_answerDatum save) _
    · rw [I.run_of_ok hread, I'.run_of_ok hread]
      -- What was read holds no closure, so it is alike to itself with nothing paired.
      have hcode : C.Code d d := Terms.code_exact_self (holdsClosure_of_readFirst hread)
      exact h.perform_alike hpaired (by rw [hI, hI']; exact .some hroot)
        (C.eval_alike depth hcode hroot) (fun _ _ _ hv => Terms.seen_datum_eq hv)
        (answers_answerDatum save)
  | runAll interpreter text =>
    obtain rfl := Option.some.inj hst
    refine h.bind_own fun w I I' hpaired hI hI' hroot => ?_
    rcases hread : readProgram text with e | ds
    · rw [I.runAll_of_error hread, I'.runAll_of_error hread]
      exact h.perform_fail answers_data _
    · rw [I.runAll_of_ok hread, I'.runAll_of_ok hread]
      have hcodes : List.Forall₂ C.Code ds ds := List.forall₂_same.mpr fun d hd =>
        Terms.code_exact_self (holdsClosure_of_readProgram hread d hd)
      have halike := Correspondence.evalElements_alike (C.levelsAlike_eval depth) hcodes hroot
      exact h.perform_alike hpaired (by rw [hI, hI']; exact .some hroot) halike
        (fun _ _ _ hvs => Terms.seen_data_eq hvs) answers_data
  | dropInterpreter interpreter =>
    obtain rfl := Option.some.inj hst
    refine h.bind_own fun w I I' hpaired hI hI' hroot => ?_
    exact .ok rfl (h.own_dropNamed hij hpaired hI hI' hroot)
  -- The other steps are nobody's.
  | parse | newInterpreter | interpretIn | nameRoot | newFrame | set | get | find | clear
  | identifiers | eval | apply | equal | inspect | procedure | complete => cases hst

/-! ### Steps of the other interpreter -/

/-- What happens to the frames of the others, and to new frames, does not matter. -/
theorem left_change (h : Follows policy others i j m o) {s' : Store}
    (hsize : m.store.frames.size ≤ s'.frames.size) (hnext : m.store.nextClosure ≤ s'.nextClosure)
    (hframes : ∀ f < m.store.frames.size, f ∉ others → s'.frames[f]? = m.store.frames[f]?) :
    Follows policy others i j { m with store := s' } o := by
  obtain ⟨w, hpaired, hroots⟩ := h.own
  have hapart : ∀ f g, w.frames f g → f ∉ others := fun f g hfg => hpaired.le_limit.1 f g hfg
  -- a number to come may still be paired, so it is not one of the others
  have hthere : ∀ f ∈ others, f < m.store.frames.size := by
    intro f hf
    by_contra hge
    obtain ⟨k, rfl⟩ := Nat.exists_eq_add_of_le (Nat.le_of_not_lt hge)
    exact hpaired.frames.ahead k hf
  refine ⟨⟨w, hpaired.apart_left hapart ?_ hsize hnext ?_, hroots⟩, h.other⟩
  · exact fun f hf => (hthere f hf).trans_le hsize
  · exact fun f g hfg => hframes f (hpaired.apart_lt hfg) (hapart f g hfg)

theorem left_perform (h : Follows policy others i j m o) {J : Interpreter}
    (hJ : J.root ∈ others) {x : Action Error α} (hx : x.Keeps (Store.Changes J.root Set.univ))
    {r : Except Error α} {m' : Session} (hperform : m.perform x = .ok (r, m')) :
    Follows policy others i j m' o := by
  obtain ⟨s', hs', rfl⟩ := perform_eq_ok_iff.mp hperform
  have hchanges := hx hs'
  refine h.left_change hchanges.size_le hchanges.closures_le fun f hf hothers => ?_
  exact hchanges.frame_eq f hf fun heq => hothers (heq ▸ hJ)

theorem left_dropNamed (h : Follows policy others i j m o) (hij : i ≠ j) {J : Interpreter}
    (hJ : m.interpreters.lookup j = some J) : Follows policy others i j (m.dropNamed j) o := by
  have hroot : J.root ∈ others := h.other J hJ
  have hcleared : Follows policy others i j { m with store := m.store.clear J.root } o := by
    refine h.left_change (Store.size_clear _ _).ge le_rfl fun f hf hothers => ?_
    have hne : f ≠ J.root := fun heq => hothers (heq ▸ hroot)
    exact Store.getElem?_modify_of_ne _ hne _
  rw [dropNamed, hJ]
  refine ⟨?_, fun J' hJ' => ?_⟩
  · change ∃ w, _ ∧ Option.Rel _ ((forget m.interpreters j).lookup i) _
    rw [lookup_forget_of_ne _ hij]
    exact hcleared.own
  · rw [lookup_forget_self] at hJ'
    cases hJ'

/-- **A step of the other interpreter goes unnoticed.** -/
theorem other_step (h : Follows policy others i j m o) (hij : i ≠ j) {st : Step}
    (hst : st.owner? = some j) {answer : Answer} {m' : Session}
    (hstep : m.step policy depth st = .ok (answer, m')) : Follows policy others i j m' o := by
  cases st with
  | run interpreter text save =>
    obtain rfl := Option.some.inj hst
    obtain ⟨J, hJ, hstep⟩ := except_bind_eq_ok_iff.mp hstep
    obtain ⟨⟨r, m₁⟩, hperform, hanswer⟩ := except_bind_eq_ok_iff.mp hstep
    have hroot := h.other J (named_eq_ok_iff.mp hJ)
    have hfollows := h.left_perform hroot (J.run_keeps text) hperform
    have hF := answers_answerDatum save
    obtain ⟨-, rfl⟩ := Prod.mk.inj (Except.ok.inj hanswer)
    exact hfollows.congr (hF.store_eq r m₁) (hF.interpreters_eq r m₁) rfl rfl
  | runAll interpreter text =>
    obtain rfl := Option.some.inj hst
    obtain ⟨J, hJ, hstep⟩ := except_bind_eq_ok_iff.mp hstep
    obtain ⟨⟨r, m₁⟩, hperform, hanswer⟩ := except_bind_eq_ok_iff.mp hstep
    have hroot := h.other J (named_eq_ok_iff.mp hJ)
    obtain ⟨-, rfl⟩ := Prod.mk.inj (Except.ok.inj hanswer)
    exact h.left_perform hroot (J.runAll_keeps text) hperform
  | dropInterpreter interpreter =>
    obtain rfl := Option.some.inj hst
    obtain ⟨J, hJ, hanswer⟩ := except_bind_eq_ok_iff.mp hstep
    obtain ⟨-, rfl⟩ := Prod.mk.inj (Except.ok.inj hanswer)
    exact h.left_dropNamed hij (named_eq_ok_iff.mp hJ)
  | parse | newInterpreter | interpretIn | nameRoot | newFrame | set | get | find | clear
  | identifiers | eval | apply | equal | inspect | procedure | complete => cases hst

end Follows

/-! ### All steps -/

/-- A step is not that of two interpreters. -/
theorem owner?_ne {i j : String} (hij : i ≠ j) {st : Step} (h : st.owner? = some j) :
    st.owner? ≠ some i := by
  rw [h]
  exact fun heq => hij (Option.some.inj heq).symm

theorem stepsOf_cons_of_eq {i : String} {st : Step} (h : st.owner? = some i) (sts : List Step) :
    stepsOf i (st :: sts) = st :: stepsOf i sts :=
  List.filter_cons_of_pos (decide_eq_true h)

theorem stepsOf_cons_of_ne {i : String} {st : Step} (h : st.owner? ≠ some i) (sts : List Step) :
    stepsOf i (st :: sts) = stepsOf i sts :=
  List.filter_cons_of_neg (by simpa using h)

theorem answersTo_cons_of_eq {i : String} {st : Step} (h : st.owner? = some i) (sts : List Step)
    (answer : Except Trouble Answer) (answers : List (Except Trouble Answer)) :
    answersTo i (st :: sts) (answer :: answers) = answer :: answersTo i sts answers := by
  simp [answersTo, h]

theorem answersTo_cons_of_ne {i : String} {st : Step} (h : st.owner? ≠ some i) (sts : List Step)
    (answer : Except Trouble Answer) (answers : List (Except Trouble Answer)) :
    answersTo i (st :: sts) (answer :: answers) = answersTo i sts answers := by
  simp [answersTo, h]

/-- What can be seen of the answers that a session gives to the steps of one
interpreter, among all the steps it is asked for. -/
def seenBy (sess : Session) (policy : FramePolicy) (depth : Nat) (interpreter : String)
    (sts : List Step) :
    List (Except Trouble (Except (String × Span × Error) (List String × Reply))) :=
  (answersTo interpreter sts (sess.steps policy depth sts)).map (Except.map seen)

/-- **An interpreter gives the same answers among others and alone.** -/
theorem Follows.seenBy_eq {i j : String} {m o : Session} (h : Follows policy others i j m o)
    (hij : i ≠ j) {sts : List Step}
    (hsts : ∀ st ∈ sts, st.owner? = some i ∨ st.owner? = some j) :
    m.seenBy policy depth i sts = (o.steps policy depth (stepsOf i sts)).map (Except.map seen) := by
  induction sts generalizing m o with
  | nil => rfl
  | cons st sts ih =>
    obtain ⟨hst, hsts⟩ := List.forall_mem_cons.mp hsts
    rw [seenBy, steps]
    rcases hst with hst | hst
    · rw [stepsOf_cons_of_eq hst, steps]
      have hstep := h.own_step depth hij hst
      generalize m.step policy depth st = x at hstep
      generalize o.step policy depth st = y at hstep
      cases hstep with
      | error trouble =>
        rw [answersTo_cons_of_eq hst, List.map_cons, List.map_cons, ← ih h hsts]
        rfl
      | ok hseen h' =>
        rw [answersTo_cons_of_eq hst, List.map_cons, List.map_cons, ← ih h' hsts]
        exact congrArg (Except.ok · :: _) hseen
    · -- the step is made on the left only
      have hne := owner?_ne hij hst
      rw [stepsOf_cons_of_ne hne]
      rcases hstep : m.step policy depth st with trouble | ⟨answer, m'⟩
      · rw [answersTo_cons_of_ne hne]
        exact ih h hsts
      · rw [answersTo_cons_of_ne hne]
        exact ih (h.other_step hij hst hstep) hsts

/-- **One more step of the other interpreter changes no answer.** -/
theorem Follows.seenBy_insert {i j : String} {m o : Session} (h : Follows policy others i j m o)
    (hij : i ≠ j) {before after : List Step} {st : Step}
    (hsts : ∀ x ∈ before ++ after, x.owner? = some i ∨ x.owner? = some j)
    (hst : st.owner? = some j) :
    m.seenBy policy depth i (before ++ st :: after) =
      m.seenBy policy depth i (before ++ after) := by
  have hne := owner?_ne hij hst
  have hmore : ∀ x ∈ before ++ st :: after, x.owner? = some i ∨ x.owner? = some j := by
    rw [List.forall_mem_append] at hsts
    exact List.forall_mem_append.mpr ⟨hsts.1, List.forall_mem_cons.mpr ⟨Or.inr hst, hsts.2⟩⟩
  have hsame : stepsOf i (before ++ st :: after) = stepsOf i (before ++ after) := by
    rw [stepsOf, stepsOf, List.filter_append, List.filter_append]
    exact congrArg (stepsOf i before ++ ·) (stepsOf_cons_of_ne hne after)
  rw [h.seenBy_eq hij hmore, h.seenBy_eq hij hsts, hsame]

/-! ### Two interpreters -/

/-- Making the second interpreter is the first step of the session of both. -/
theorem seenBy_newInterpreter (a b interpreter : String) (sts : List Step) :
    (start a).seenBy policy depth interpreter (.newInterpreter b :: sts) =
      (startTwo a b).seenBy policy depth interpreter sts := by
  have hne : (Step.newInterpreter b).owner? ≠ some interpreter := nofun
  exact congrArg (List.map (Except.map seen)) (answersTo_cons_of_ne hne _ _ _)

theorem startTwo_eq {a b : String} (hab : a ≠ b) :
    startTwo a b = ⟨(start a).store.addRoot.2, [(b, ⟨1⟩), (a, ⟨0⟩)], [], []⟩ := by
  have hsize : (start a).store.frames.size = 1 := Store.size_addRoot .empty
  have hnone : (start a).interpreters.lookup b = none := by
    simp [start, Interpreter.new_eq, List.lookup_cons, beq_false_of_ne hab.symm]
  have hdrop : ({ start a with store := (start a).store.addRoot.2 } : Session).dropNamed b = _ :=
    dropNamed_of_none hnone
  rw [startTwo, Interpreter.new_eq, hsize]
  dsimp only
  rw [nameInterpreter, hdrop]
  rfl

/-- The interpreter that was made first has the same root in both sessions. -/
theorem follows_first {a b : String} (hab : a ≠ b) :
    Follows policy {1} a b (startTwo a b) (start a) := by
  rw [startTwo_eq hab]
  have hsize : (start a).store.frames.size = 1 := Store.size_addRoot .empty
  have hgrown := Store.extends_addRoot (start a).store
  -- alone, the first root stands for itself; the second one is then added on the left
  have halone : Paired (.apart policy ∅) _ (start a).store (start a).store :=
    (Paired.apart_empty fun _ hf => absurd hf id).addRoot (fun _ => trivial) rfl
  have hzero : ∀ f g, (Paired.withNextFrames .empty .empty .empty).frames f g → f = 0 :=
    fun f g hfg => hfg.elim (absurd · id) fun h => h.1
  refine ⟨⟨_, halone.apart_left ?_ ?_ hgrown.size_le hgrown.closures_le ?_, ?_⟩, fun J hJ => ?_⟩
  · exact fun f g hfg hf => absurd ((hzero f g hfg).symm.trans hf) (by decide)
  · rintro f rfl
    rw [Store.size_addRoot, hsize]
    decide
  · exact fun f g hfg => hgrown.frame_eq f (by rw [hzero f g hfg, hsize]; decide)
  · rw [show [(b, (⟨1⟩ : Interpreter)), (a, ⟨0⟩)].lookup a = some ⟨0⟩ by
        simp [List.lookup_cons, beq_false_of_ne hab],
      show (start a).interpreters.lookup a = some ⟨0⟩ by
        simp [start, Interpreter.new_eq, Store.empty]]
    exact .some (Or.inr ⟨rfl, rfl⟩)
  · obtain rfl : (⟨1⟩ : Interpreter) = J := by simpa using hJ
    rfl

/-- The interpreter that was made second is the first one alone. -/
theorem follows_second {a b : String} (hab : a ≠ b) :
    Follows policy {0} b a (startTwo a b) (start b) := by
  rw [startTwo_eq hab]
  have hsize : (start a).store.frames.size = 1 := Store.size_addRoot .empty
  have hzero : ∀ f ∈ ({0} : Set FrameId), f < (start a).store.frames.size := by
    rintro f rfl
    rw [hsize]
    decide
  -- with nothing paired so far, both sessions make the root that is compared
  have hnew : Paired (.apart policy {0}) _ (start a).store.addRoot.2 (start b).store :=
    (Paired.apart_empty hzero).addRoot (fun _ => trivial) rfl
  refine ⟨⟨_, hnew, ?_⟩, fun J hJ => ?_⟩
  · rw [show [(b, (⟨1⟩ : Interpreter)), (a, ⟨0⟩)].lookup b = some ⟨1⟩ by simp,
      show (start b).interpreters.lookup b = some ⟨0⟩ by
        simp [start, Interpreter.new_eq, Store.empty]]
    exact .some (Or.inr ⟨hsize.symm, rfl⟩)
  · obtain rfl : (⟨0⟩ : Interpreter) = J := by
      simpa [List.lookup_cons, beq_false_of_ne hab] using hJ
    rfl

end Session

open Session in
/-- **Interpreters share nothing.** However the steps of two interpreters follow each
other, each of them gives the answers that it gives when its steps are made alone. So
giving up one of them at any point changes no answer of the other. -/
theorem interpreters_share_nothing (policy : FramePolicy) (depth : Nat) {a b : String}
    (hab : a ≠ b) {sts : List Step} (hsts : ∀ st ∈ sts, st.owner? = some a ∨ st.owner? = some b) :
    (start a).seenBy policy depth a (.newInterpreter b :: sts) =
      ((start a).steps policy depth (stepsOf a sts)).map (Except.map seen) ∧
    (start a).seenBy policy depth b (.newInterpreter b :: sts) =
      ((start b).steps policy depth (stepsOf b sts)).map (Except.map seen) ∧
    ∀ before after, sts = before ++ after →
      (start a).seenBy policy depth a (.newInterpreter b :: before ++ .dropInterpreter b :: after) =
        (start a).seenBy policy depth a (.newInterpreter b :: sts) ∧
      (start a).seenBy policy depth b (.newInterpreter b :: before ++ .dropInterpreter a :: after) =
        (start a).seenBy policy depth b (.newInterpreter b :: sts) := by
  have hfirst : Follows policy {1} a b _ _ := follows_first hab
  have hsecond : Follows policy {0} b a _ _ := follows_second hab
  have hsts' : ∀ st ∈ sts, st.owner? = some b ∨ st.owner? = some a := fun st hst =>
    (hsts st hst).symm
  simp only [List.cons_append, seenBy_newInterpreter]
  refine ⟨hfirst.seenBy_eq hab hsts, hsecond.seenBy_eq hab.symm hsts', ?_⟩
  rintro before after rfl
  exact ⟨hfirst.seenBy_insert hab hsts rfl, hsecond.seenBy_insert hab.symm hsts' rfl⟩

open Session in
/-- What `b` binds is unbound for `a`. -/
theorem definition_unseen_by_other_interpreter :
    let sts : List Step :=
      [.run "b" "(define x nil)" none, .run "a" "x" none, .dropInterpreter "b"]
    (start "a").seenBy .clearFinished 2 "a" (.newInterpreter "b" :: sts) =
      [.ok (seen (.error (.eval (.unbound "x" ⟨0, 1⟩))))] := by
  intro sts
  have hsts : ∀ st ∈ sts, st.owner? = some "a" ∨ st.owner? = some "b" := by
    simp [sts, Step.owner?]
  have hown : stepsOf "a" sts = [.run "a" "x" none] := by
    simp [sts, stepsOf, Step.owner?]
  have halone : (start "a").steps .clearFinished 2 [.run "a" "x" none] =
      [.ok (.error (.eval (.unbound "x" ⟨0, 1⟩)))] := by
    cbv
  rw [(interpreters_share_nothing .clearFinished 2 (by decide) hsts).1, hown, halone]
  rfl

end SmallLisp
