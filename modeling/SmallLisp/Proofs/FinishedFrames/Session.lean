import Mathlib
import SmallLisp.Proofs.FinishedFrames.Twins
import SmallLisp.Proofs.Session.Basic

/-!
# Clearing finished frames cannot be observed

The bindings of a finished call or `let*` are removed unless the result holds a closure.
No result, no frame that was there before and no answer in a session ever depends on it
(`SmallLisp.clearing_finished_frames_unobservable`).

For a single evaluation this is the reachability argument of
`SmallLisp.Store.Twins.eval`. A session is compared with its twin, in which finished
frames are kept: both have the same names for the same things, all of which lie in a
set of frames that the two stores have in common (`SmallLisp.Session.Twins`). Every step
gives the same answer in both, and leaves twins (`SmallLisp.Session.Twins.step_sameAnswer`).
-/

namespace SmallLisp

variable {live live' : Set FrameId} {s t : Store} {ε δ α β : Type}

/-! ### Actions on twins -/

/-- Actions that come to the same result in twins, and leave twins. The values they
give capture no frame out of reach; `captured` tells which frames they capture. -/
def TwinActions (live : Set FrameId) (captured : α → List FrameId) (x y : Action ε α) : Prop :=
  ∀ ⦃s t⦄, s.Twins live t →
    Option.Rel (fun o p => o.1 = p.1 ∧ ∃ live', live ⊆ live' ∧
      (∀ a, o.1 = .ok a → ∀ g ∈ captured a, g ∈ live') ∧ o.2.Twins live' p.2) (x s) (y t)

namespace TwinActions

variable {captured : α → List FrameId} {captured' : β → List FrameId}

theorem ofExcept {r : Except ε α} (h : ∀ a, r = .ok a → ∀ g ∈ captured a, g ∈ live) :
    TwinActions live captured (Action.ofExcept r) (Action.ofExcept r) :=
  fun _ _ htwins => .some ⟨rfl, live, subset_rfl, h, htwins⟩

theorem mapError {x y : Action ε α} (h : TwinActions live captured x y) (F : ε → δ) :
    TwinActions live captured (x.mapError F) (y.mapError F) := by
  intro s t htwins
  have hends := h htwins
  rw [Action.mapError, Action.mapError]
  generalize x s = o at hends
  generalize y t = p at hends
  cases hends with
  | none => exact .none
  | @some o p hop =>
    obtain ⟨r, s'⟩ := o
    obtain ⟨r', t'⟩ := p
    obtain ⟨rfl, live', hsub, hcaptured, htwins'⟩ := hop
    cases r with
    | error e => exact .some ⟨rfl, live', hsub, fun a ha => by simp at ha, htwins'⟩
    | ok a =>
      refine .some ⟨rfl, live', hsub, fun a' ha' => ?_, htwins'⟩
      obtain rfl := Except.ok.inj ha'
      exact hcaptured a rfl

theorem bind {x y : Action ε α} (h : TwinActions live captured x y) {F G : α → Action ε β}
    (hFG : ∀ live', live ⊆ live' → ∀ a, (∀ g ∈ captured a, g ∈ live') →
      TwinActions live' captured' (F a) (G a)) :
    TwinActions live captured' (x >>= F) (y >>= G) := by
  intro s t htwins
  have hends := h htwins
  rw [Action.bind_apply, Action.bind_apply]
  generalize x s = o at hends
  generalize y t = p at hends
  cases hends with
  | none => exact .none
  | @some o p hop =>
    obtain ⟨r, s'⟩ := o
    obtain ⟨r', t'⟩ := p
    obtain ⟨rfl, live', hsub, hcaptured, htwins'⟩ := hop
    cases r with
    | error e => exact .some ⟨rfl, live', hsub, fun a ha => by simp at ha, htwins'⟩
    | ok a =>
      have hnext := hFG live' hsub a (hcaptured a rfl) htwins'
      refine optionRel_imp (fun o p hop => ?_) hnext
      obtain ⟨heq, live'', hsub', hrest⟩ := hop
      exact ⟨heq, live'', hsub.trans hsub', hrest⟩

theorem of_ends {x y : Action EvalError Datum}
    (h : ∀ s t, s.Twins live t → Option.Rel (Store.Twins.Ends live) (x s) (y t)) :
    TwinActions live Datum.captured x y := by
  intro s t htwins
  refine optionRel_imp (fun o p hop => ?_) (h s t htwins)
  obtain ⟨heq, live', hsub, hcaptured, htwins'⟩ := hop
  refine ⟨heq, live', hsub, fun d hd => ?_, htwins'⟩
  rw [hd] at hcaptured
  exact hcaptured

end TwinActions

/-! ### Interpreters -/

/-- What is read captures nothing. -/
theorem captured_of_readFirst {text : String} {d : Datum}
    (h : (readFirst text).mapError Error.read = .ok d) : ∀ g ∈ d.captured, g ∈ live := by
  rw [Datum.captured_eq_nil (holdsClosure_of_readFirst (except_mapError_eq_ok_iff.mp h))]
  exact fun g hg => absurd hg List.not_mem_nil

namespace Interpreter

variable {i : Interpreter} (depth : Nat) (hi : i.root ∈ live)

include hi

theorem evaluate_twins {d : Datum} (hd : ∀ g ∈ d.captured, g ∈ live) :
    TwinActions live Datum.captured (i.evaluate .clearFinished depth d)
      (i.evaluate .keepAll depth d) :=
  TwinActions.mapError (.of_ends fun _ _ htwins => htwins.eval depth hi hd) _

/-- Nothing is said of what the values of several expressions capture. -/
theorem evaluateAll_twins {ds : List Datum} (hds : ∀ d ∈ ds, ∀ g ∈ d.captured, g ∈ live) :
    TwinActions live (fun _ => []) (i.evaluateAll .clearFinished depth ds)
      (i.evaluateAll .keepAll depth ds) := by
  induction ds generalizing live with
  | nil => exact TwinActions.ofExcept fun _ _ g hg => absurd hg List.not_mem_nil
  | cons d ds ih =>
    obtain ⟨hd, hds⟩ := List.forall_mem_cons.mp hds
    -- the set may have grown when the second expression is evaluated
    refine (evaluate_twins depth hi hd).bind fun live' hsub v _ => ?_
    have hrest := ih (hsub hi) fun d hd g hg => hsub (hds d hd g hg)
    exact hrest.bind fun _ _ _ _ => TwinActions.ofExcept fun _ _ g hg => absurd hg List.not_mem_nil

theorem run_twins (text : String) :
    TwinActions live Datum.captured (i.run .clearFinished depth text)
      (i.run .keepAll depth text) := by
  have hread : TwinActions live Datum.captured
      (Action.ofExcept ((readFirst text).mapError Error.read))
      (Action.ofExcept ((readFirst text).mapError Error.read)) :=
    TwinActions.ofExcept fun d hd => captured_of_readFirst hd
  exact hread.bind fun live' hsub d hd => evaluate_twins depth (hsub hi) hd

theorem runAll_twins (text : String) :
    TwinActions live (fun _ => []) (i.runAll .clearFinished depth text)
      (i.runAll .keepAll depth text) := by
  have hread : TwinActions live Datum.capturedByAll
      (Action.ofExcept ((readProgram text).mapError Error.read))
      (Action.ofExcept ((readProgram text).mapError Error.read)) := by
    refine TwinActions.ofExcept fun ds hds g hg => ?_
    obtain ⟨d, hd, hg⟩ := Datum.mem_capturedByAll.mp hg
    have hfree := holdsClosure_of_readProgram (except_mapError_eq_ok_iff.mp hds) d hd
    rw [Datum.captured_eq_nil hfree] at hg
    exact absurd hg List.not_mem_nil
  refine hread.bind fun live' hsub ds hds => evaluateAll_twins depth (hsub hi) fun d hd g hg => ?_
  exact hds g (Datum.mem_capturedByAll.mpr ⟨d, hd, hg⟩)

end Interpreter

/-! ### Sessions -/

namespace Session

/-- **Sessions that are the same as far as their names reach**: they name the same
things, all of which lie within a set of frames that their stores have in common. -/
structure Twins (live : Set FrameId) (a b : Session) : Prop where
  store : a.store.Twins live b.store
  interpreters_eq : b.interpreters = a.interpreters
  frames_eq : b.frames = a.frames
  values_eq : b.values = a.values
  root_mem : ∀ e ∈ a.interpreters, e.2.root ∈ live
  frame_mem : ∀ e ∈ a.frames, e.2 ∈ live
  captured_mem : ∀ e ∈ a.values, ∀ g ∈ e.2.captured, g ∈ live

/-- What a step comes to in twins: the same trouble, or the same answer in twins. -/
inductive SameAnswer : Except Trouble (Answer × Session) → Except Trouble (Answer × Session) → Prop
  | error (trouble : Trouble) : SameAnswer (.error trouble) (.error trouble)
  | ok (answer : Answer) {live : Set FrameId} {a b : Session} (h : a.Twins live b) :
    SameAnswer (.ok (answer, a)) (.ok (answer, b))

/-- Something that is found under the same name in both sessions. -/
theorem SameAnswer.bind {x : Except Trouble α}
    {F G : α → Except Trouble (Answer × Session)} (h : ∀ v, x = .ok v → SameAnswer (F v) (G v)) :
    SameAnswer (x >>= F) (x >>= G) := by
  cases x with
  | error trouble => exact .error trouble
  | ok v => exact h v rfl

namespace Twins

variable {a b : Session} (h : a.Twins live b)

include h

/-! ### Changes of names -/

theorem withStore (hsub : live ⊆ live') (hstore : s.Twins live' t) :
    Twins live' { a with store := s } { b with store := t } where
  store := hstore
  interpreters_eq := h.interpreters_eq
  frames_eq := h.frames_eq
  values_eq := h.values_eq
  root_mem e he := hsub (h.root_mem e he)
  frame_mem e he := hsub (h.frame_mem e he)
  captured_mem e he g hg := hsub (h.captured_mem e he g hg)

theorem save (name : Option String) {d : Datum} (hd : ∀ g ∈ d.captured, g ∈ live) :
    (a.save name d).Twins live (b.save name d) := by
  cases name with
  | none => exact h
  | some name =>
    exact { h with
      values_eq := congrArg (giveName · name d) h.values_eq
      captured_mem := forall_mem_giveName (P := fun d : Datum => ∀ g ∈ d.captured, g ∈ live)
        h.captured_mem name hd }

theorem nameFrame (name : String) {f : FrameId} (hf : f ∈ live) :
    (a.nameFrame name f).Twins live (b.nameFrame name f) :=
  { h with
    frames_eq := congrArg (giveName · name f) h.frames_eq
    frame_mem := forall_mem_giveName h.frame_mem name hf }

/-- The next frames of the two stores have the same number. -/
theorem nameNewFrame (name : String) (hsub : live ⊆ live') (hnew : a.store.frames.size ∈ live')
    (hstore : s.Twins live' t) :
    SameAnswer (.ok (.ok .done, { a with store := s }.nameFrame name a.store.frames.size))
      (.ok (.ok .done, { b with store := t }.nameFrame name b.store.frames.size)) := by
  rw [← h.store.size_eq]
  exact .ok _ ((h.withStore hsub hstore).nameFrame name hnew)

theorem dropNamed (name : String) : (a.dropNamed name).Twins live (b.dropNamed name) := by
  rw [Session.dropNamed, Session.dropNamed, h.interpreters_eq]
  split
  · next i hfound =>
    obtain ⟨es, es', heq, -⟩ := List.lookup_eq_some_iff.mp hfound
    have hi : i.root ∈ live := h.root_mem (name, i) (by simp [heq])
    exact { h with
      store := h.store.clear hi
      interpreters_eq := rfl
      root_mem := fun e he => h.root_mem e (List.mem_filter.mp he).1 }
  · exact h

theorem nameInterpreter (name : String) {i : Interpreter} (hi : i.root ∈ live) :
    (a.nameInterpreter name i).Twins live (b.nameInterpreter name i) := by
  have hdropped := h.dropNamed name
  exact { hdropped with
    interpreters_eq := congrArg ((name, i) :: ·) hdropped.interpreters_eq
    root_mem := List.forall_mem_cons.mpr ⟨hi, hdropped.root_mem⟩ }

theorem answerDatum (name : Option String) {r : Except Error Datum}
    (hr : ∀ d, r = .ok d → ∀ g ∈ d.captured, g ∈ live) :
    SameAnswer (.ok (a.answerDatum name r)) (.ok (b.answerDatum name r)) := by
  cases r with
  | error e => exact .ok _ h
  | ok d => exact .ok _ (h.save name (hr d rfl))

/-! ### What is named

A step first looks up what it works on. Both sessions find the same under a name, and
it lies within the set. -/

theorem bind_frame {name : String} {F G : FrameId → Except Trouble (Answer × Session)}
    (hFG : ∀ f ∈ live, SameAnswer (F f) (G f)) :
    SameAnswer (named a.frames name >>= F) (named b.frames name >>= G) := by
  rw [h.frames_eq]
  exact .bind fun f hf => hFG f (h.frame_mem _ (mem_of_named hf))

theorem bind_interpreter {name : String}
    {F G : Interpreter → Except Trouble (Answer × Session)}
    (hFG : ∀ i, i.root ∈ live → SameAnswer (F i) (G i)) :
    SameAnswer (named a.interpreters name >>= F) (named b.interpreters name >>= G) := by
  rw [h.interpreters_eq]
  exact .bind fun i hi => hFG i (h.root_mem _ (mem_of_named hi))

theorem bind_value {name : String} {F G : Datum → Except Trouble (Answer × Session)}
    (hFG : ∀ d, (∀ g ∈ d.captured, g ∈ live) → SameAnswer (F d) (G d)) :
    SameAnswer (named a.values name >>= F) (named b.values name >>= G) := by
  rw [h.values_eq]
  exact .bind fun d hd => hFG d (h.captured_mem _ (mem_of_named hd))

theorem bind_values {names : List String} {F G : List Datum → Except Trouble (Answer × Session)}
    (hFG : ∀ ds, (∀ d ∈ ds, ∀ g ∈ d.captured, g ∈ live) → SameAnswer (F ds) (G ds)) :
    SameAnswer (names.mapM (named a.values) >>= F) (names.mapM (named b.values) >>= G) := by
  rw [h.values_eq]
  refine .bind fun ds hds => hFG ds fun d hd => ?_
  obtain ⟨name, hmem⟩ := exists_mem_of_mapM_named hds d hd
  exact h.captured_mem _ hmem

theorem bind_operand {value : Operand}
    {F G : Except Error Datum → Except Trouble (Answer × Session)}
    (hFG : ∀ r, (∀ d, r = .ok d → ∀ g ∈ d.captured, g ∈ live) → SameAnswer (F r) (G r)) :
    SameAnswer (a.operand value >>= F) (b.operand value >>= G) := by
  cases value with
  | saved name =>
    rw [operand, operand, bind_assoc, bind_assoc]
    refine h.bind_value fun d hd => hFG _ fun d' hd' => ?_
    obtain rfl := Except.ok.inj hd'
    exact hd
  | text source => exact hFG _ fun d hd => captured_of_readFirst hd

theorem bind_place {place : Place} {F G : FrameId → Except Trouble (Answer × Session)}
    (hFG : ∀ f ∈ live, SameAnswer (F f) (G f)) :
    SameAnswer (a.place place >>= F) (b.place place >>= G) := by
  cases place with
  | frame name => exact h.bind_frame hFG
  | root name =>
    rw [Session.place, Session.place, bind_assoc, bind_assoc]
    exact h.bind_interpreter fun i hi => hFG i.root hi

theorem bind_procedure {name : String} {F G : Procedure → Except Trouble (Answer × Session)}
    (hFG : ∀ p, (∀ g ∈ p.captured, g ∈ live) → SameAnswer (F p) (G p)) :
    SameAnswer (a.procedureOf name >>= F) (b.procedureOf name >>= G) := by
  rw [procedureOf, procedureOf, bind_assoc, bind_assoc]
  refine h.bind_value fun d hd => ?_
  rcases hp : d.procedure? with - | p
  · exact .error _
  · refine hFG p ?_
    rw [Datum.captured_of_procedure? hp]
    exact hd

theorem nameOfFrame_eq : b.nameOfFrame = a.nameOfFrame := by
  funext f
  rw [nameOfFrame, nameOfFrame, h.frames_eq]

/-! ### One step -/

/-- What is performed in twins is answered alike, if the answers are. -/
theorem perform {captured : α → List FrameId} {x y : Action ε α}
    (hxy : TwinActions live captured x y)
    {F G : Except ε α × Session → Except Trouble (Answer × Session)}
    (hFG : ∀ r live' a' b', (∀ v, r = .ok v → ∀ g ∈ captured v, g ∈ live') →
      Twins live' a' b' → SameAnswer (F (r, a')) (G (r, b'))) :
    SameAnswer (a.perform x >>= F) (b.perform y >>= G) := by
  have hends := hxy h.store
  rw [Session.perform, Session.perform]
  generalize x a.store = o at hends
  generalize y b.store = p at hends
  cases hends with
  | none => exact .error .outOfDepth
  | @some o p hop =>
    obtain ⟨r, s'⟩ := o
    obtain ⟨r', t'⟩ := p
    obtain ⟨rfl, live', hsub, hcaptured, hstore⟩ := hop
    exact hFG r live' _ _ hcaptured (h.withStore hsub hstore)

/-- **A step gives the same answer whether finished frames are cleared or kept**, and
leaves twins. -/
theorem step_sameAnswer (depth : Nat) (st : Step) :
    SameAnswer (a.step .clearFinished depth st) (b.step .keepAll depth st) := by
  cases st with
  | run interpreter text save =>
    refine h.bind_interpreter fun i hi => ?_
    exact h.perform (i.run_twins depth hi text) fun r live' a' b' hr h' => h'.answerDatum save hr
  | runAll interpreter text =>
    refine h.bind_interpreter fun i hi => ?_
    exact h.perform (i.runAll_twins depth hi text) fun r live' a' b' _ h' => .ok _ h'
  | parse text save => exact h.answerDatum save fun d hd => captured_of_readFirst hd
  | newInterpreter interpreter =>
    -- the new root has the same number in both, and joins the set
    rw [step, step, Interpreter.new_eq, Interpreter.new_eq, ← h.store.size_eq]
    obtain ⟨live', hsub, hnew, hstore⟩ := h.store.addRoot
    exact .ok _ ((h.withStore hsub hstore).nameInterpreter interpreter hnew)
  | interpretIn interpreter frame =>
    exact h.bind_frame fun f hf => .ok _ (h.nameInterpreter interpreter hf)
  | dropInterpreter interpreter =>
    exact h.bind_interpreter fun _ _ => .ok _ (h.dropNamed interpreter)
  | nameRoot interpreter frame =>
    exact h.bind_interpreter fun i hi => .ok _ (h.nameFrame frame hi)
  | newFrame frame kind =>
    cases kind with
    | library =>
      obtain ⟨live', hsub, hnew, hstore⟩ := h.store.addRoot
      exact h.nameNewFrame frame hsub hnew hstore
    | bare =>
      obtain ⟨live', hsub, hnew, hstore⟩ := h.store.addFrame (o := none) (by simp)
      exact h.nameNewFrame frame hsub hnew hstore
    | child outer =>
      rw [step, step]
      simp only [pure_bind]
      refine h.bind_frame fun f hf => ?_
      have hlink : ∀ o, some f = some o → o ∈ live := fun o ho => Option.some.inj ho ▸ hf
      obtain ⟨live', hsub, hnew, hstore⟩ := h.store.addFrame hlink
      exact h.nameNewFrame frame hsub hnew hstore
  | set frame name value save =>
    refine h.bind_frame fun f hf => h.bind_operand fun r hr => ?_
    cases r with
    | error e => exact .ok _ h
    | ok d =>
      have hstore := h.store.set hf name (hr d rfl)
      exact (h.withStore subset_rfl hstore).answerDatum save hr
  | get frame name span save =>
    refine h.bind_frame fun f hf => ?_
    obtain ⟨hcaptured, heq⟩ := h.store.lookup?_eq hf name
    rw [← heq]
    rcases hfound : a.store.lookup? name f with - | d
    · exact .ok _ h
    · refine h.answerDatum save fun d' hd' => ?_
      obtain rfl := Except.ok.inj hd'
      exact hcaptured d hfound
  | find frame name =>
    refine h.bind_frame fun f hf => ?_
    rw [← h.store.find?_eq hf name, h.nameOfFrame_eq]
    exact .ok _ h
  | clear frame =>
    exact h.bind_frame fun f hf => .ok _ (h.withStore subset_rfl (h.store.clear hf))
  | identifiers frame =>
    refine h.bind_frame fun f hf => ?_
    rw [Store.visibleNames, Store.visibleNames, ← h.store.namesFrom_eq hf]
    exact .ok _ h
  | eval value place save =>
    refine h.bind_operand fun r hr => ?_
    cases r with
    | error e => exact .ok _ h
    | ok d =>
      refine h.bind_place fun f hf => ?_
      have heval : TwinActions live Datum.captured (eval .clearFinished depth d f)
          (eval .keepAll depth d f) :=
        .of_ends fun _ _ hstore => hstore.eval depth hf (hr d rfl)
      exact h.perform (heval.mapError Error.eval) fun r live' a' b' hr h' => h'.answerDatum save hr
  | apply procedure args span save =>
    refine h.bind_procedure fun p hp => h.bind_values fun ds hds => ?_
    have happly : TwinActions live Datum.captured (apply .clearFinished depth p ds span)
        (apply .keepAll depth p ds span) :=
      .of_ends fun _ _ hstore => hstore.apply depth hp hds span
    exact h.perform (happly.mapError Error.eval) fun r live' a' b' hr h' => h'.answerDatum save hr
  | equal c d => exact h.bind_value fun _ _ => h.bind_value fun _ _ => .ok _ h
  | inspect value => exact h.bind_value fun _ _ => .ok _ h
  | procedure value frame =>
    refine h.bind_procedure fun p hp => ?_
    cases frame with
    | none => exact .ok _ h
    | some name =>
      cases p with
      | primitive p => exact .ok _ h
      | closure c => exact .ok _ (h.nameFrame name (hp _ List.mem_cons_self))
  | complete frame line position =>
    refine h.bind_frame fun f hf => ?_
    rw [completions, completions, completableNames, completableNames, ← h.store.namesFrom_eq hf]
    exact .ok _ h

/-- **A session gives the same answers whether finished frames are cleared or kept.** -/
theorem steps_eq (depth : Nat) (sts : List Step) :
    a.steps .clearFinished depth sts = b.steps .keepAll depth sts := by
  induction sts generalizing live a b with
  | nil => rfl
  | cons st sts ih =>
    have hstep := h.step_sameAnswer depth st
    rw [steps, steps]
    generalize a.step .clearFinished depth st = o at hstep
    generalize b.step .keepAll depth st = p at hstep
    -- a step that is in trouble leaves the sessions as they are
    cases hstep with
    | error trouble => exact congrArg (Except.error trouble :: ·) (ih h)
    | ok answer h' => exact congrArg (Except.ok answer :: ·) (ih h')

end Twins

/-- A new session is its own twin. -/
theorem exists_twins_start (interpreter : String) :
    ∃ live, (start interpreter).Twins live (start interpreter) := by
  have hempty : Store.empty.Twins ∅ Store.empty :=
    ⟨rfl, rfl, fun _ hf => absurd hf id, fun _ hf => absurd hf id,
      fun _ hf => absurd hf id, fun _ hf => absurd hf id⟩
  obtain ⟨live, -, hnew, hstore⟩ := hempty.addRoot
  refine ⟨live, hstore, rfl, rfl, rfl, List.forall_mem_singleton.mpr hnew, ?_, ?_⟩
  · exact fun e he => absurd he List.not_mem_nil
  · exact fun e he => absurd he List.not_mem_nil

end Session

/-! ### What can be observed -/

/-- **Outcomes that cannot be told apart** by a program that was run in a store: the
same results are possible, and after the same result the frames are the same that can be
reached from the result or from a frame that was there before. -/
def Indistinguishable (s : Store) (out out' : Except EvalError Datum → Store → Prop) : Prop :=
  (∀ r, (∃ t, out r t) ↔ ∃ t, out' r t) ∧
  ∀ r t t', out r t → out' r t' →
    ∀ g, t.Reachable ({f | f < s.frames.size} ∪ {f | f ∈ capturedByResult r}) g ∨
        t'.Reachable ({f | f < s.frames.size} ∪ {f | f ∈ capturedByResult r}) g →
      t.frames[g]? = t'.frames[g]?

theorem Store.Twins.Ends.frames_eq {o p : Except EvalError Datum × Store}
    (h : Store.Twins.Ends live o p) {g : FrameId}
    (hg : o.2.Reachable (live ∪ {f | f ∈ capturedByResult o.1}) g ∨
      p.2.Reachable (live ∪ {f | f ∈ capturedByResult o.1}) g) :
    o.2.frames[g]? = p.2.frames[g]? := by
  obtain ⟨-, live', hsub, hcaptured, htwins⟩ := h
  have hroots : live ∪ {f | f ∈ capturedByResult o.1} ⊆ live' := Set.union_subset hsub hcaptured
  refine htwins.frame_eq g ?_
  rcases hg with hg | hg
  · exact hg.mem_of_closed htwins.closed hroots
  · exact hg.mem_of_closed htwins.closed_right hroots

/-- Evaluations that end in step cannot be told apart. -/
theorem indistinguishable_of_ends {x y : Nat → Action EvalError Datum}
    (hends : ∀ depth, Option.Rel (Store.Twins.Ends {f | f < s.frames.size}) (x depth s) (y depth s))
    (hunique : ∀ {r r' t t'}, (∃ depth, y depth s = some (r, t)) →
      (∃ depth, y depth s = some (r', t')) → r = r' ∧ t = t') :
    Indistinguishable s (fun r t => ∃ depth, x depth s = some (r, t))
      fun r t => ∃ depth, y depth s = some (r, t) := by
  refine ⟨fun r => ⟨?_, ?_⟩, fun r t t' hx hy g hg => ?_⟩
  · rintro ⟨t, depth, hx⟩
    obtain ⟨⟨r', t'⟩, hy, hend⟩ := exists_of_optionRel_left (hends depth) hx
    obtain rfl : r = r' := hend.1
    exact ⟨t', depth, hy⟩
  · rintro ⟨t', depth, hy⟩
    obtain ⟨⟨r', t⟩, hx, hend⟩ := exists_of_optionRel_right (hends depth) hy
    obtain rfl : r' = r := hend.1
    exact ⟨t, depth, hx⟩
  · have hend := outcome_rel hends hunique hx hy
    exact hend.frames_eq hg

/-- **Clearing finished frames cannot be observed.** In a store that is well formed, an
evaluation has the same result whether finished frames are cleared or kept, and the
stores it leaves are the same as far as one can get from the result and from the frames
that were there, that of the evaluation among them. The same holds of applications, and
every session gives the same answers. -/
theorem clearing_finished_frames_unobservable :
    (∀ s : Store, s.WellFormed → ∀ d f, f < s.frames.size →
      (∀ g ∈ Datum.captured d, g < s.frames.size) →
      Indistinguishable s (Evaluates .clearFinished s d f) (Evaluates .keepAll s d f)) ∧
    (∀ s : Store, s.WellFormed → ∀ p args span,
      (∀ g ∈ Procedure.captured p, g < s.frames.size) →
      (∀ d ∈ args, ∀ g ∈ Datum.captured d, g < s.frames.size) →
      Indistinguishable s (Applies .clearFinished s p args span)
        (Applies .keepAll s p args span)) ∧
    ∀ interpreter depth sts, (Session.start interpreter).steps .clearFinished depth sts =
      (Session.start interpreter).steps .keepAll depth sts := by
  refine ⟨fun s hs d f hf hd => ?_, fun s hs p args span hp hargs => ?_, fun i depth sts => ?_⟩
  · exact indistinguishable_of_ends (fun depth => hs.twins.eval depth hf hd) Evaluates.unique
  · exact indistinguishable_of_ends (fun depth => hs.twins.apply depth hp hargs span)
      Applies.unique
  · obtain ⟨live, h⟩ := Session.exists_twins_start i
    exact h.steps_eq depth sts

/-- `((lambda (a) (lambda () a)) ((lambda (b) b) t))` makes two calls: the frame of the
inner one is cleared, that of the outer one is captured by the result. -/
theorem captured_frame_unaffected_by_clearing :
    let n := Span.none
    let s : Store := ⟨#[⟨none, .empty⟩], 0⟩
    let lambda (params : List String) (body : Datum) : Datum :=
      .list [.symbol "lambda" n, .list (params.map (.symbol · n)) n, body] n
    let d : Datum := .list [lambda ["a"] (lambda [] (.symbol "a" n)),
      .list [lambda ["b"] (.symbol "b" n), .boolean true n] n] n
    ∃ r t t', Evaluates .clearFinished s d 0 r t ∧ Evaluates .keepAll s d 0 r t' ∧
      capturedByResult r = [2] ∧ t.frames[2]? = t'.frames[2]? ∧
      (t.bindings 1).binds "b" = false ∧ (t'.bindings 1).binds "b" = true := by
  intro n s lambda d
  let r : Except EvalError Datum := .ok (.closure 2 [] [.symbol "a" n] 2 n)
  let t (b : Bindings) : Store :=
    ⟨#[⟨none, .empty⟩, ⟨some 0, b⟩, ⟨some 0, ⟨[("a", .boolean true n)]⟩⟩], 3⟩
  have hclear : Evaluates .clearFinished s d 0 r (t .empty) :=
    ⟨5, by unfold r t s d lambda n; cbv⟩
  have hkeep : Evaluates .keepAll s d 0 r (t ⟨[("b", .boolean true n)]⟩) :=
    ⟨5, by unfold r t s d lambda n; cbv⟩
  have hs : s.WellFormed := by
    refine ⟨fun f o ho => ?_, fun f g hg => ?_⟩
    · rcases f with - | f <;> simp [s, Store.outer?] at ho
    · rcases f with - | f <;>
        simp [s, Store.captured, Store.bindings, Bindings.captured, Bindings.empty] at hg
  have hd : ∀ g ∈ d.captured, g < s.frames.size := by
    rw [Datum.captured_eq_nil rfl]
    exact fun g hg => absurd hg List.not_mem_nil
  have hsame := clearing_finished_frames_unobservable.1 s hs d 0 (by decide) hd
  refine ⟨r, _, _, hclear, hkeep, rfl, ?_, rfl, rfl⟩
  exact hsame.2 r _ _ hclear hkeep 2 (Or.inl (.root (Or.inr List.mem_cons_self)))

end SmallLisp
