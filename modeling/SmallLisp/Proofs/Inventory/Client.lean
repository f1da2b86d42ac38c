import Mathlib
import SmallLisp.Proofs.Inventory.Eval
import SmallLisp.Proofs.Stock.Calls

/-!
# Stores stay well formed

A program that embeds the interpreter is a client of a store: it makes frames, binds names and
clears frames, looks names up, evaluates and applies, has texts run and gives interpreters up
(`SmallLisp.Operation`), in any order and whether or not its operations fail. All it cannot do is
to make references up. So it comes with an inventory of what has been given to it so far, and
works on nothing else (`SmallLisp.Client.Step`).

Whatever such a client has done, its store is well formed
(`SmallLisp.client_keeps_store_well_formed`). What it has in hand is only a part of what there is,
for frames and closures may be out of its sight. The invariant is therefore that there is an
inventory that accounts for the whole store and lists what is in hand
(`SmallLisp.Client.Accounted`).
-/

namespace SmallLisp

/-! ### Operations -/

/-- **An operation on a store.** -/
inductive Operation where
  /-- Makes a frame that binds nothing, inside another or inside none. -/
  | newFrame (outer : Option FrameId)
  /-- Makes a frame that binds the primitives. -/
  | newRoot
  /-- Binds a name in a frame. -/
  | set (f : FrameId) (name : String) (value : Datum)
  /-- Removes every binding of a frame. -/
  | clear (f : FrameId)
  /-- Looks a name up; the span is that of the error if it is unbound. -/
  | get (f : FrameId) (name : String) (span : Span)
  /-- Finds the frame that binds a name. -/
  | find (f : FrameId) (name : String)
  /-- Evaluates an expression. -/
  | evaluate (d : Datum) (f : FrameId)
  /-- Applies a procedure. -/
  | apply (p : Procedure) (args : List Datum) (span : Span)
  /-- Has an interpreter run a text. -/
  | call (i : Interpreter) (c : Call)
  /-- Gives an interpreter up. -/
  | drop (i : Interpreter)

/-- **What an operation gives to the client**: frames and values. -/
structure Gain where
  /-- The frames that are given. -/
  frames : List FrameId
  /-- The values that are given. -/
  values : List Datum

/-- The datum that an error hands on, as a list. -/
def Error.found : Error → List Datum
  | .read _ => []
  | .eval e => e.found

/-- What is gained by a result: an error may hand on a datum as well. -/
def Gain.ofResult : Except Error Gain → Gain
  | .ok g => g
  | .error e => ⟨[], e.found⟩

namespace Operation

variable {policy : FramePolicy} {depth : Nat} {w w' : Inventory} {op : Operation}

/-- **Performs an operation.** -/
def perform (policy : FramePolicy) (depth : Nat) : Operation → Action Error Gain
  | .newFrame outer => do
    let f ← Action.step fun s => s.addFrame outer .empty
    return ⟨[f], []⟩
  | .newRoot => do
    let f ← Action.step Store.addRoot
    return ⟨[f], []⟩
  | .set f name value => do
    Action.change (·.set f name value)
    return ⟨[], [value]⟩
  | .clear f => do
    Action.change (·.clear f)
    return ⟨[], []⟩
  | .get f name span => Action.inspect fun s =>
    match s.lookup? name f with
    | some v => .ok ⟨[], [v]⟩
    | none => .error (.eval (.unbound name span))
  | .find f name => Action.inspect fun s => .ok ⟨(s.find? name f).toList, []⟩
  | .evaluate d f => do
    let v ← (eval policy depth d f).mapError Error.eval
    return ⟨[], [v]⟩
  | .apply p args span => do
    let v ← (SmallLisp.apply policy depth p args span).mapError Error.eval
    return ⟨[], [v]⟩
  | .call i c => do
    let vs ← c.answer policy depth i
    return ⟨[], vs⟩
  | .drop i => do
    Action.change i.drop
    return ⟨[], []⟩

/-- **An operation uses only what is listed**: its frames, and the closures of its data. -/
def UsesOnly (w : Inventory) : Operation → Prop
  | .newFrame outer => ∀ o, outer = some o → o ∈ w.frames
  | .newRoot => True
  | .set f _ value => f ∈ w.frames ∧ w.Lists value
  | .clear f => f ∈ w.frames
  | .get f _ _ => f ∈ w.frames
  | .find f _ => f ∈ w.frames
  | .evaluate d f => f ∈ w.frames ∧ w.Lists d
  | .apply p args _ => (∀ k, p = .closure k → k ∈ w.closures) ∧ ∀ d ∈ args, w.Lists d
  | .call i _ => i.root ∈ w.frames
  | .drop i => i.root ∈ w.frames

theorem UsesOnly.mono (h : op.UsesOnly w) (hle : w ≤ w') : op.UsesOnly w' := by
  cases op with
  | newFrame outer => exact fun o ho => hle.1 (h o ho)
  | newRoot => trivial
  | set f name value => exact ⟨hle.1 h.1, h.2.mono hle⟩
  | clear f | get f | find f => exact hle.1 h
  | evaluate d f => exact ⟨hle.1 h.1, h.2.mono hle⟩
  | apply p args span => exact ⟨fun k hk => hle.2 (h.1 k hk), fun d hd => (h.2 d hd).mono hle⟩
  | call i | drop i => exact hle.1 h

end Operation

/-! ### Operations keep an inventory -/

namespace Inventory

variable {w : Inventory}

/-- An inventory lists what is gained. -/
def ListsGain (w : Inventory) (g : Gain) : Prop :=
  (∀ f ∈ g.frames, f ∈ w.frames) ∧ ∀ d ∈ g.values, w.Lists d

/-- An error of any kind is listed if what it hands on is. -/
def ListsFailure (w : Inventory) (e : Error) : Prop := ∀ d ∈ e.found, w.Lists d

theorem listsGain_values {ds : List Datum} (h : ∀ d ∈ ds, w.Lists d) : w.ListsGain ⟨[], ds⟩ :=
  ⟨List.forall_mem_nil _, h⟩

theorem listsGain_value {d : Datum} (h : w.Lists d) : w.ListsGain ⟨[], [d]⟩ :=
  listsGain_values (List.forall_mem_singleton.mpr h)

theorem listsGain_nothing : w.ListsGain ⟨[], []⟩ := listsGain_values (List.forall_mem_nil _)

theorem listsGain_ofResult {r : Except Error Gain} (h : Meets w.ListsFailure w.ListsGain r) :
    w.ListsGain (.ofResult r) := by
  cases r with
  | ok g => exact h
  | error e => exact listsGain_values h

end Inventory

/-- A frame that is found binds something, so it is there. -/
theorem Store.lt_size_of_find? {s : Store} {x : String} {f g : FrameId}
    (h : s.find? x f = some g) : g < s.frames.size := by
  obtain ⟨v, hv⟩ := exists_get?_of_find? h
  by_contra hg
  rw [bindings, Array.getElem?_eq_none (Nat.le_of_not_lt hg)] at hv
  cases hv

section Enlarges

variable {policy : FramePolicy} {depth : Nat} {w : Inventory}

/-- An evaluation as an operation: its error is one among others. -/
theorem Action.Enlarges.mapEval {α : Type} {Q : Inventory → α → Prop} {x : Action EvalError α}
    (hx : w.Enlarges Q x) : (x.mapError Error.eval).Enlarges w Inventory.ListsFailure Q :=
  hx.mapError fun _ _ he => he

/-- **A call of an interpreter enlarges every inventory** that lists its root. -/
theorem Call.answer_enlarges (c : Call) {i : Interpreter} (hi : i.root ∈ w.frames) :
    (c.answer policy depth i).Enlarges w Inventory.ListsFailure
      fun w vs => ∀ v ∈ vs, w.Lists v := by
  cases c with
  | run text =>
    refine Action.Enlarges.bind (Q := Inventory.Lists) ?_ fun w' v _ hv => ?_
    · rcases hread : readFirst text with e | d
      · rw [i.run_of_error hread]
        exact Action.enlarges_fail (List.forall_mem_nil _)
      · rw [i.run_of_ok hread]
        have hd : w.Lists d := Inventory.lists_of_not_holdsClosure (holdsClosure_of_readFirst hread)
        exact (eval_enlarges policy depth w d i.root hd hi).mapEval
    · exact Action.enlarges_pure (List.forall_mem_singleton.mpr hv)
  | runAll text =>
    rw [Call.answer]
    rcases hread : readProgram text with e | ds
    · rw [i.runAll_of_error hread]
      exact Action.enlarges_fail (List.forall_mem_nil _)
    · rw [i.runAll_of_ok hread]
      have hds : ∀ d ∈ ds, w.Lists d := fun d hd =>
        Inventory.lists_of_not_holdsClosure (holdsClosure_of_readProgram hread d hd)
      exact (evalElements_enlarges (eval_enlarges policy depth) hi hds).mapEval

/-- A frame that is made is added to the inventory, and given to the client. -/
theorem enlarges_newFrame {make : Store → FrameId × Store}
    (hmake : ∀ s, w.Accounts s → (w.addFrame (make s).1).Accounts (make s).2) :
    (do let f ← Action.step make; return ⟨[f], []⟩ : Action Error Gain).Enlarges w
      Inventory.ListsFailure Inventory.ListsGain := by
  have hstep : (Action.step make).Enlarges w Inventory.ListsFailure fun w f => f ∈ w.frames :=
    Action.enlarges_step fun s hs => ⟨_, w.le_addFrame _, hmake s hs, Set.mem_insert _ _⟩
  refine hstep.bind fun w' f _ hf => Action.enlarges_pure ?_
  exact ⟨List.forall_mem_singleton.mpr hf, List.forall_mem_nil _⟩

/-- **An operation enlarges every inventory that lists what it uses.** -/
theorem Operation.perform_enlarges {op : Operation} (huses : op.UsesOnly w) :
    (op.perform policy depth).Enlarges w Inventory.ListsFailure Inventory.ListsGain := by
  cases op with
  | newFrame outer => exact enlarges_newFrame fun s hs => hs.addFrame huses
  | newRoot => exact enlarges_newFrame fun s hs => hs.addRoot
  | set f name value =>
    refine (Action.enlarges_change fun s hs => hs.set name huses.2).bind fun w' _ hle _ => ?_
    exact Action.enlarges_pure (Inventory.listsGain_value (huses.2.mono hle))
  | clear f =>
    refine (Action.enlarges_change fun s hs => hs.clear f).bind fun w' _ _ _ => ?_
    exact Action.enlarges_pure Inventory.listsGain_nothing
  | get f name span =>
    refine Action.enlarges_inspect fun s hs => ?_
    split
    · next v hv => exact Inventory.listsGain_value (hs.holds.lookup? hv)
    · exact List.forall_mem_nil _
  | find f name =>
    refine Action.enlarges_inspect fun s hs => ⟨fun g hg => ?_, List.forall_mem_nil _⟩
    exact (hs.mem_frames_iff g).mpr (Store.lt_size_of_find? (Option.mem_toList.mp hg))
  | evaluate d f =>
    refine (eval_enlarges policy depth w d f huses.2 huses.1).mapEval.bind fun w' v _ hv => ?_
    exact Action.enlarges_pure (Inventory.listsGain_value hv)
  | apply p args span =>
    refine (applyWith_enlarges (eval_enlarges policy depth) huses.1 huses.2).mapEval.bind ?_
    exact fun w' v _ hv => Action.enlarges_pure (Inventory.listsGain_value hv)
  | call i c =>
    refine (c.answer_enlarges huses).bind fun w' vs _ hvs => ?_
    exact Action.enlarges_pure (Inventory.listsGain_values hvs)
  | drop i =>
    refine (Action.enlarges_change fun s hs => hs.clear i.root).bind fun w' _ _ _ => ?_
    exact Action.enlarges_pure Inventory.listsGain_nothing

end Enlarges

/-! ### Operations keep links -/

namespace Store

variable {s t : Store}

/-- **Every frame of the first store is in the second, with the link it had.** -/
structure KeepsLinks (s t : Store) : Prop where
  size_le : s.frames.size ≤ t.frames.size
  outer_eq : ∀ f < s.frames.size, t.outer? f = s.outer? f

instance : IsPreorder Store KeepsLinks where
  refl _ := ⟨le_rfl, fun _ _ => rfl⟩
  trans _ _ _ hst htu :=
    ⟨hst.size_le.trans htu.size_le, fun f hf =>
      (htu.outer_eq f (hf.trans_le hst.size_le)).trans (hst.outer_eq f hf)⟩

theorem Changes.keepsLinks {f : FrameId} {names : Set String} (h : Changes f names s t) :
    KeepsLinks s t where
  size_le := h.size_le
  outer_eq g hg := by
    by_cases hgf : g = f
    · rw [hgf] at hg ⊢
      exact h.outer_eq hg
    · exact outer?_eq_of_getElem?_eq (h.frame_eq g hg hgf)

theorem Extends.keepsLinks (h : Extends s t) : KeepsLinks s t where
  size_le := h.size_le
  outer_eq g hg := outer?_eq_of_getElem?_eq (h.frame_eq g hg)

theorem keepsLinks_clear (s : Store) (f : FrameId) : KeepsLinks s (s.clear f) where
  size_le := (s.size_clear f).ge
  outer_eq g _ := s.outer?_clear f g

theorem keepsLinks_addFrame (s : Store) (outer : Option FrameId) :
    KeepsLinks s (s.addFrame outer .empty).2 :=
  (Changes.refl _ ∅ _).extends_of_addFrame.keepsLinks

end Store

/-- **No operation changes a link.** -/
theorem Operation.perform_keepsLinks (op : Operation) (policy : FramePolicy) (depth : Nat) :
    (op.perform policy depth).Keeps Store.KeepsLinks := by
  cases op with
  | newFrame outer =>
    refine Action.Keeps.bind (Action.keeps_step fun s => ?_) fun f => Action.keeps_pure _
    exact s.keepsLinks_addFrame outer
  | newRoot =>
    refine Action.Keeps.bind (Action.keeps_step fun s => ?_) fun f => Action.keeps_pure _
    exact s.extends_addRoot.keepsLinks
  | set f name value =>
    refine Action.Keeps.bind (Action.keeps_change fun s => ?_) fun _ => Action.keeps_pure _
    exact (s.changes_set f name value).keepsLinks
  | clear f =>
    refine Action.Keeps.bind (Action.keeps_change fun s => ?_) fun _ => Action.keeps_pure _
    exact s.keepsLinks_clear f
  | get f name span => exact Action.keeps_inspect _
  | find f name => exact Action.keeps_inspect _
  | evaluate d f =>
    have heval := (eval_confined policy depth d f).mono fun _ _ h => h.keepsLinks
    exact Action.Keeps.bind (heval.mapError _) fun v => Action.keeps_pure _
  | apply p args span =>
    have happly := (apply_keeps_extends policy depth p args span).mono fun _ _ h => h.keepsLinks
    exact Action.Keeps.bind (happly.mapError _) fun v => Action.keeps_pure _
  | call i c =>
    have hanswer : (c.answer policy depth i).Keeps Store.KeepsLinks := by
      cases c with
      | run text =>
        exact Action.Keeps.bind ((i.run_keeps text).mono fun _ _ h => h.keepsLinks) fun v =>
          Action.keeps_pure _
      | runAll text => exact (i.runAll_keeps text).mono fun _ _ h => h.keepsLinks
    exact hanswer.bind fun vs => Action.keeps_pure _
  | drop i =>
    refine Action.Keeps.bind (Action.keeps_change fun s => ?_) fun _ => Action.keeps_pure _
    exact s.keepsLinks_clear i.root

/-! ### Clients -/

/-- **A client of a store**, with the frames and closures that have been given to it so far. -/
structure Client where
  /-- The store that it works on. -/
  store : Store
  /-- What it has in hand. -/
  hand : Inventory

/-- An inventory with what is gained. A closure gives away the frame that it has captured. -/
def Inventory.gain (w : Inventory) (g : Gain) : Inventory where
  frames := {f | f ∈ w.frames ∨ f ∈ g.frames ∨ ∃ d ∈ g.values, ∃ k ∈ d.closures, k.frame = f}
  closures := {k | k ∈ w.closures ∨ ∃ d ∈ g.values, k ∈ d.closures}

/-- What is gained is in the inventory, if that lists it and accounts for a store. -/
theorem Inventory.gain_le {w w' : Inventory} {s : Store} {g : Gain} (hle : w ≤ w')
    (hg : w'.ListsGain g) (hs : w'.Accounts s) : w.gain g ≤ w' := by
  constructor
  · rintro f (hf | hf | ⟨d, hd, k, hk, rfl⟩)
    · exact hle.1 hf
    · exact hg.1 f hf
    · exact hs.frame_mem k (hg.2 d hd k hk)
  · rintro k (hk | ⟨d, hd, hk⟩)
    · exact hle.2 hk
    · exact hg.2 d hd k hk

namespace Client

variable {policy : FramePolicy} {c c' : Client} {w : Inventory}

/-- A client that has done nothing yet. -/
def start : Client := ⟨.empty, ⟨∅, ∅⟩⟩

/-- **A step of a client**: an operation on what it has in hand, whether or not it succeeds. -/
inductive Step (policy : FramePolicy) : Client → Client → Prop
  | perform {c : Client} {op : Operation} {depth : Nat} {r : Except Error Gain} {t : Store}
    (huses : op.UsesOnly c.hand) (h : op.perform policy depth c.store = some (r, t)) :
    Step policy c ⟨t, c.hand.gain (.ofResult r)⟩

/-- **A client comes to be another** by any number of steps. -/
abbrev Leads (policy : FramePolicy) : Client → Client → Prop :=
  Relation.ReflTransGen (Step policy)

/-- **A closure that there is**: in hand, or in a value that a name is bound to. -/
def Holds (c : Client) (k : Closure) : Prop :=
  k ∈ c.hand.closures ∨ ∃ f x v, (c.store.bindings f).get? x = some v ∧ k ∈ v.closures

/-- **An inventory accounts for a client** if it does so for the store, and lists what is in
hand. -/
structure Accounted (w : Inventory) (c : Client) : Prop where
  store : w.Accounts c.store
  hand_le : c.hand ≤ w

theorem accounted_start : Accounted ⟨∅, ∅⟩ start := ⟨Inventory.accounts_empty, le_rfl⟩

theorem Accounted.mem_of_holds (h : Accounted w c) {k : Closure} (hk : c.Holds k) :
    k ∈ w.closures := by
  rcases hk with hk | ⟨f, x, v, hv, hk⟩
  · exact h.hand_le.2 hk
  · exact h.store.holds f x v hv k hk

/-- **A step enlarges the inventory.** -/
theorem Accounted.step (h : Accounted w c) (hstep : Step policy c c') :
    ∃ w', w ≤ w' ∧ Accounted w' c' := by
  cases hstep with
  | perform huses hrun =>
    obtain ⟨w', hle, ht, hr⟩ := Operation.perform_enlarges (huses.mono h.hand_le) h.store hrun
    have hgain := Inventory.listsGain_ofResult hr
    exact ⟨w', hle, ht, Inventory.gain_le (h.hand_le.trans hle) hgain ht⟩

/-- **So does any number of steps.** -/
theorem Accounted.leads (h : Accounted w c) (hleads : Leads policy c c') :
    ∃ w', w ≤ w' ∧ Accounted w' c' := by
  induction hleads with
  | refl => exact ⟨w, le_rfl, h⟩
  | tail _ hstep ih =>
    obtain ⟨w', hle, h'⟩ := ih
    obtain ⟨w'', hle', h''⟩ := h'.step hstep
    exact ⟨w'', hle.trans hle', h''⟩

theorem Leads.keepsLinks (h : Leads policy c c') : c.store.KeepsLinks c'.store := by
  induction h with
  | refl => exact Std.Refl.refl _
  | tail _ hstep ih =>
    cases hstep with
    | @perform op depth r t _ hrun =>
      exact IsTrans.trans _ _ _ ih (op.perform_keepsLinks policy depth hrun)

end Client

/-- **A client keeps its store well formed**, whatever operations it performs on what it has been
given, and whether or not they succeed.

* Every link goes to a frame made earlier. So the links from every frame end, in a chain of earlier
  and earlier frames. It is the chain that a lookup walks along, and the names that can be seen are
  those bound along it.
* Every closure that there is – in hand, bound to a name, in a list or in the body of another – has
  captured a frame that is there.
* No link is ever changed, and no identity of a closure is used again: closures with the same
  identity, be it at different times, have the same parameters, body and captured frame. -/
theorem client_keeps_store_well_formed (policy : FramePolicy) {c : Client}
    (hc : Client.Leads policy .start c) :
    c.store.LinksBack ∧
    (∀ f, ∃ fs, c.store.IsChain f fs ∧ fs.Pairwise (· > ·) ∧
      (∀ x found, c.store.find? x f = found ↔ c.store.Resolves x fs found) ∧
      c.store.namesFrom f = fs.flatMap fun g => (c.store.bindings g).names) ∧
    (∀ k, c.Holds k → k.frame < c.store.frames.size) ∧
    ∀ c', Client.Leads policy c c' →
      (∀ f < c.store.frames.size,
        f < c'.store.frames.size ∧ c'.store.outer? f = c.store.outer? f) ∧
      ∀ k k', c.Holds k → c'.Holds k' → k.id = k'.id → k = k' := by
  obtain ⟨w, -, hw⟩ := Client.accounted_start.leads hc
  refine ⟨hw.store.linksBack, fun f => ?_, fun k hk => ?_, fun c' hc' => ⟨fun f hf => ?_, ?_⟩⟩
  · exact ⟨c.store.chain f, hw.store.linksBack.isChain f, c.store.pairwise_gt_chain f,
      fun x found => Store.find?_eq_iff, c.store.namesFrom_eq_chain f⟩
  · exact (hw.store.mem_frames_iff _).mp (hw.store.frame_mem k (hw.mem_of_holds hk))
  · have hlinks := hc'.keepsLinks
    exact ⟨hf.trans_le hlinks.size_le, hlinks.outer_eq f hf⟩
  · intro k k' hk hk' hid
    -- the later inventory still lists what the earlier one does
    obtain ⟨w', hle, hw'⟩ := hw.leads hc'
    exact hw'.store.id_injOn (hle.2 (hw.mem_of_holds hk)) (hw'.mem_of_holds hk') hid

/-- A client makes a frame, evaluates `(define f (lambda () f))` in it and applies the value. The
closure is bound in the frame that it has captured, so what can be reached from it goes round in a
circle; but the frame of the call is linked to that frame and to no other. Whatever closure there
is then with the identity of `f` is `f`, the result of the call among them. -/
theorem closure_bound_where_it_was_made :
    let n := Span.none
    let k : Closure := ⟨0, [], [.symbol "f" n], 0⟩
    let f : Datum := .closure 0 [] [.symbol "f" n] 0 n
    ∃ c c', Client.Leads .clearFinished .start c ∧ Client.Leads .clearFinished c c' ∧
      (c.store.bindings 0).get? "f" = some f ∧ c.Holds k ∧ k.frame < c.store.frames.size ∧
      c'.store.IsChain 1 [1, 0] ∧ c'.store.outer? 0 = c.store.outer? 0 ∧
      ∀ k', c'.Holds k' → k'.id = 0 → k' = k := by
  intro n k f
  let define : Datum := .list [.symbol "define" n, .symbol "f" n,
    .list [.symbol "lambda" n, .list [] n, .symbol "f" n] n] n
  let made : Client := ⟨⟨#[⟨none, .empty⟩], 0⟩, Client.start.hand.gain ⟨[0], []⟩⟩
  let defined : Client := ⟨⟨#[⟨none, ⟨[("f", f)]⟩⟩], 1⟩, made.hand.gain ⟨[], [f]⟩⟩
  let applied : Client :=
    ⟨⟨#[⟨none, ⟨[("f", f)]⟩⟩, ⟨some 0, .empty⟩], 1⟩, defined.hand.gain ⟨[], [f]⟩⟩
  have hmade : Client.Step .clearFinished .start made := by
    have hrun : (Operation.newFrame none).perform .clearFinished 0 Client.start.store =
        some (.ok ⟨[0], []⟩, made.store) := rfl
    have huses : (Operation.newFrame none).UsesOnly Client.start.hand :=
      fun o ho => absurd ho.symm (Option.some_ne_none o)
    exact .perform huses hrun
  have hdefined : Client.Step .clearFinished made defined := by
    have hrun : (Operation.evaluate define 0).perform .clearFinished 3 made.store =
        some (.ok ⟨[], [f]⟩, defined.store) := by
      unfold define made defined f n
      cbv
    have huses : (Operation.evaluate define 0).UsesOnly made.hand :=
      ⟨.inr (.inl List.mem_cons_self), List.forall_mem_nil _⟩
    exact .perform huses hrun
  have happlied : Client.Step .clearFinished defined applied := by
    have hrun : (Operation.apply (.closure k) [] n).perform .clearFinished 3 defined.store =
        some (.ok ⟨[], [f]⟩, applied.store) := by
      unfold k defined applied f n
      cbv
    have huses : (Operation.apply (.closure k) [] n).UsesOnly defined.hand := by
      refine ⟨fun c hc => ?_, List.forall_mem_nil _⟩
      obtain rfl := Procedure.closure.inj hc
      exact .inr ⟨f, List.mem_cons_self, List.mem_cons_self⟩
    exact .perform huses hrun
  have hc : Client.Leads .clearFinished .start defined := .tail (.tail .refl hmade) hdefined
  have hc' : Client.Leads .clearFinished defined applied := .tail .refl happlied
  have hk : defined.Holds k := .inl (.inr ⟨f, List.mem_cons_self, List.mem_cons_self⟩)
  obtain ⟨-, -, hframe, hlater⟩ := client_keeps_store_well_formed .clearFinished hc
  obtain ⟨hlinks, hids⟩ := hlater applied hc'
  refine ⟨defined, applied, hc, hc', rfl, hk, hframe k hk, .link rfl (.last rfl),
    (hlinks 0 Nat.zero_lt_one).2, fun k' hk' hid => ?_⟩
  exact (hids k k' hk hk' hid.symm).symm

end SmallLisp
