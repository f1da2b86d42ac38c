import SmallLisp.Proofs.Grammar.Shift
import SmallLisp.Proofs.Session.Basic
import SmallLisp.Proofs.SpanBlind

/-!
# Cutting a program between expressions

A program may be given to an interpreter as one text or in pieces, cut where a blank stands
between two expressions. Two things differ. The data of a later piece have other spans,
since their text begins anew (`SmallLisp.readProgram_append`); and the pieces are run one
after the other, up to the first that fails (`SmallLisp.RunsInTurn`).

The second difference is none: running pieces in turn is evaluating all their data in order
(`SmallLisp.runsInTurn_iff`). Nor does the first one show, as evaluation does not see spans
(`SmallLisp.Interpreter.evaluateAll_spanBlind`). So whatever comes of the whole text comes
of its pieces, the printed values or the text of the error, and the stores that are left
differ in spans at most: `SmallLisp.program_cut_between_expressions`.
-/

namespace SmallLisp

variable {policy : FramePolicy} {i : Interpreter} {s t : Store}

/-- Moving a datum changes its spans only. -/
theorem Datum.eraseSpans_shiftSpans (n : Nat) (d : Datum) :
    (d.shiftSpans n).eraseSpans = d.eraseSpans := by
  induction d using Datum.induction with
  | atom | primitive => rfl
  | list es s ih =>
    rw [shiftSpans_list, eraseSpans, eraseSpans, eraseAllSpans_eq, eraseAllSpans_eq, List.map_map]
    exact congrArg (Datum.list · Span.none) (List.map_congr_left ih)
  | closure id params body frame s ih =>
    rw [shiftSpans, shiftAllSpans_eq, eraseSpans, eraseSpans, eraseAllSpans_eq, eraseAllSpans_eq,
      List.map_map]
    exact congrArg (Datum.closure id params · frame Span.none) (List.map_congr_left ih)

/-! ### Running texts -/

/-- **Running every expression of a text gives an answer**, and leaves the store `t`. -/
def RunsAll (policy : FramePolicy) (i : Interpreter) (s : Store) (text : String)
    (r : Except Error (List Datum)) (t : Store) : Prop :=
  ∃ depth, i.runAll policy depth text s = some (r, t)

/-- **Running texts in turn**: each in the store that the one before it has left, up to the
first that fails. The answer is the values of all of them in order, or the error. -/
inductive RunsInTurn (policy : FramePolicy) (i : Interpreter) :
    Store → List String → Except Error (List Datum) → Store → Prop
  | nil (s : Store) : RunsInTurn policy i s [] (.ok []) s
  | error {s t : Store} {text : String} {e : Error} (texts : List String)
    (h : RunsAll policy i s text (.error e) t) :
    RunsInTurn policy i s (text :: texts) (.error e) t
  | ok {s u t : Store} {text : String} {texts : List String} {vs : List Datum}
    {r : Except Error (List Datum)} (h : RunsAll policy i s text (.ok vs) u)
    (hrest : RunsInTurn policy i u texts r t) :
    RunsInTurn policy i s (text :: texts) (r.map (vs ++ ·)) t

theorem Action.Below.mapError {ε δ α : Type} {x y : Action ε α} (h : x.Below y) (g : ε → δ) :
    (x.mapError g).Below (y.mapError g) := by
  intro s o hx
  rw [Action.mapError] at hx ⊢
  rcases hxs : x s with _ | p
  · rw [hxs] at hx
    cases hx
  · rw [hxs] at hx
    rw [h hxs]
    exact hx

namespace Interpreter

/-- A greater depth changes nothing for expressions whose evaluation ends. -/
theorem evaluateAll_mono {m n : Nat} (h : m ≤ n) (ds : List Datum) :
    (i.evaluateAll policy m ds).Below (i.evaluateAll policy n ds) := by
  rw [evaluateAll_eq, evaluateAll_eq]
  exact (evalElements_below (eval_mono policy h) i.root ds).mapError _

/-- **Expressions are evaluated in order**: those of a first part, and if none of them fails,
those of a second part. -/
theorem evaluateAll_append (depth : Nat) (ds es : List Datum) :
    i.evaluateAll policy depth (ds ++ es) = (do
      let vs ← i.evaluateAll policy depth ds
      let ws ← i.evaluateAll policy depth es
      return vs ++ ws) := by
  induction ds with
  | nil => simp [evaluateAll]
  | cons d ds ih => simp [evaluateAll, ih]

theorem runAll_eq_evaluateAll {text : String} {ds : List Datum} (h : readProgram text = .ok ds)
    (depth : Nat) : i.runAll policy depth text = i.evaluateAll policy depth ds := by
  rw [runAll_of_ok i h, evaluateAll_eq]

end Interpreter

/-- Texts that can be read, with what is read from them. -/
abbrev Read (texts : List String) (programs : List (List Datum)) : Prop :=
  List.Forall₂ (fun text ds => readProgram text = .ok ds) texts programs

/-- **Running texts in turn is evaluating all their data in order.** Each text may need a
depth of its own; the greatest of them is enough for all. -/
theorem runsInTurn_iff {texts : List String} {programs : List (List Datum)}
    (hread : Read texts programs) {r : Except Error (List Datum)} :
    RunsInTurn policy i s texts r t ↔
      ∃ depth, i.evaluateAll policy depth programs.flatten s = some (r, t) := by
  induction hread generalizing s r with
  | nil =>
    constructor
    · rintro ⟨⟩
      exact ⟨0, rfl⟩
    · rintro ⟨depth, h⟩
      obtain ⟨rfl, rfl⟩ := Prod.mk.inj (Option.some.inj h)
      exact .nil s
  | @cons text ds texts programs htext _ ih =>
    rw [List.flatten_cons]
    constructor
    · intro h
      cases h with
      | error _ hfail =>
        obtain ⟨depth, hfail⟩ := hfail
        rw [i.runAll_eq_evaluateAll htext] at hfail
        refine ⟨depth, ?_⟩
        rw [Interpreter.evaluateAll_append]
        exact Action.bind_eq_some_iff.mpr (Or.inl ⟨_, hfail, rfl⟩)
      | @ok _ u _ _ _ vs r' hfirst hrest =>
        obtain ⟨m, hfirst⟩ := hfirst
        obtain ⟨n, hrest⟩ := ih.mp hrest
        rw [i.runAll_eq_evaluateAll htext] at hfirst
        have hfirst' := Interpreter.evaluateAll_mono (Nat.le_max_left m n) ds hfirst
        have hrest' := Interpreter.evaluateAll_mono (Nat.le_max_right m n) programs.flatten hrest
        refine ⟨max m n, ?_⟩
        rw [Interpreter.evaluateAll_append]
        refine Action.bind_eq_some_iff.mpr (Or.inr ⟨vs, u, hfirst', ?_⟩)
        rcases r' with e | ws
        · exact Action.bind_eq_some_iff.mpr (Or.inl ⟨e, hrest', rfl⟩)
        · exact Action.bind_eq_some_iff.mpr (Or.inr ⟨ws, t, hrest', rfl⟩)
    · rintro ⟨depth, h⟩
      rw [Interpreter.evaluateAll_append] at h
      rcases Action.bind_eq_some_iff.mp h with ⟨e, hfail, rfl⟩ | ⟨vs, u, hfirst, h⟩
      · rw [← i.runAll_eq_evaluateAll htext] at hfail
        exact .error texts ⟨depth, hfail⟩
      · rw [← i.runAll_eq_evaluateAll htext] at hfirst
        rcases Action.bind_eq_some_iff.mp h with ⟨e, hfail, rfl⟩ | ⟨ws, u', hrest, h⟩
        · exact .ok ⟨depth, hfirst⟩ (ih.mpr ⟨depth, hfail⟩)
        · obtain ⟨rfl, rfl⟩ := Prod.mk.inj (Option.some.inj h)
          exact .ok ⟨depth, hfirst⟩ (ih.mpr ⟨depth, hrest⟩)

/-! ### What comes of a run -/

/-- What a run prints: its values in order, or the text of its error. -/
def printed : Except Error (List Datum) → Except String (List String)
  | .ok vs => .ok (vs.map Datum.render)
  | .error e => .error e.message

/-- An error without its spans; one of reading keeps them, as they are in its text. -/
def Error.eraseSpans : Error → Error
  | .read e => .read e
  | .eval e => .eval e.eraseSpans

/-- The answer of a run without its spans. -/
def eraseAnswerSpans : Except Error (List Datum) → Except Error (List Datum)
  | .ok vs => .ok (vs.map Datum.eraseSpans)
  | .error e => .error e.eraseSpans

/-- **Runs that come to the same but for spans**: they print the same values, or the same
error, and their answers and the stores that they leave differ in spans at most. -/
structure SameRunButSpans (o p : Except Error (List Datum) × Store) : Prop where
  printed_eq : printed o.1 = printed p.1
  answer_eq : eraseAnswerSpans o.1 = eraseAnswerSpans p.1
  store_eq : o.2.eraseSpans = p.2.eraseSpans

/-- **Expressions that are the same but for spans come to the same but for spans.** -/
theorem Interpreter.evaluateAll_spanBlind (depth : Nat) {ds es : List Datum}
    (hds : ds.map Datum.eraseSpans = es.map Datum.eraseSpans) :
    Option.Rel SameRunButSpans (i.evaluateAll policy depth ds s)
      (i.evaluateAll policy depth es s) := by
  let C := Paired.correspondence (.spanBlind policy)
  have hfits : C.Fits .same s s := paired_spanBlind_iff.mpr rfl
  have hcodes : List.Forall₂ C.Code ds es :=
    forall₂_of_map_eq_map hds fun d _ e hde => code_spanBlind_iff.mpr hde
  have hroot : Pairing.same.frames i.root i.root := rfl
  have hends : Option.Rel (C.EndsAlike .same fun w => List.Forall₂ (C.Value w))
      (evalElements (eval policy depth) i.root ds s)
      (evalElements (eval policy depth) i.root es s) :=
    Correspondence.evalElements_alike (C.levelsAlike_eval depth) hcodes hroot hfits
  rw [evaluateAll_eq, evaluateAll_eq, Action.mapError, Action.mapError]
  generalize evalElements (eval policy depth) i.root ds s = o at hends ⊢
  generalize evalElements (eval policy depth) i.root es s = p at hends ⊢
  cases hends with
  | none => exact .none
  | @some o p hend =>
    obtain ⟨r, t⟩ := o
    obtain ⟨r', t'⟩ := p
    obtain ⟨w, hw, hfits', hresult⟩ := hend
    -- there is no pairing but the identity
    obtain rfl : Pairing.same = w := le_antisymm hw hfits'.le_limit
    have hstore : t.eraseSpans = t'.eraseSpans := paired_spanBlind_iff.mp hfits'
    cases hresult with
    | ok hvs =>
      have hrender := map_eq_map_of_forall₂ (hvs.imp fun _ _ hv => hv.render_eq)
      have herase := map_eq_map_of_forall₂ (hvs.imp fun _ _ hv => value_spanBlind_iff.mp hv)
      exact .some ⟨congrArg Except.ok hrender, congrArg Except.ok herase, hstore⟩
    | @error e e' he =>
      have hresult : eraseResultSpans (.error e) = eraseResultSpans (.error e') :=
        eraseResultSpans_eq (.error he)
      have herase : e.eraseSpans = e'.eraseSpans := Except.error.inj hresult
      exact .some ⟨congrArg Except.error he.message_eq,
        congrArg (fun e => Except.error (Error.eval e)) herase, hstore⟩

/-! ### Cutting -/

/-- A text and further ones behind it, each with what stands in front of it. -/
def joinTexts (first : String) (rest : List (String × String)) : String :=
  rest.foldl (fun text piece => text ++ piece.1 ++ piece.2) first

theorem joinTexts_cons (first sep b : String) (rest : List (String × String)) :
    joinTexts first ((sep, b) :: rest) = joinTexts (first ++ sep ++ b) rest := rfl

/-- A piece that may stand behind others: a text that can be read, with a blank in front. -/
structure IsPiece (piece : String × String) : Prop where
  ne_empty : piece.1 ≠ ""
  blank : ∀ c ∈ piece.1.toList, isBlank c = true
  read : ∃ es, readProgram piece.2 = .ok es

/-- From a text that is joined of pieces the data of all the pieces are read, apart from
spans. -/
theorem exists_readProgram_joinTexts {first : String} {ds : List Datum}
    (hfirst : readProgram first = .ok ds) {rest : List (String × String)}
    (hrest : ∀ piece ∈ rest, IsPiece piece) :
    ∃ programs es, Read (rest.map Prod.snd) programs ∧
      readProgram (joinTexts first rest) = .ok es ∧
      es.map Datum.eraseSpans = (ds ++ programs.flatten).map Datum.eraseSpans := by
  induction rest generalizing first ds with
  | nil => exact ⟨[], ds, .nil, hfirst, by rw [List.flatten_nil, List.append_nil]⟩
  | cons piece rest ih =>
    obtain ⟨sep, b⟩ := piece
    obtain ⟨⟨hne, hblank, fs, hb⟩, hrest⟩ := List.forall_mem_cons.mp hrest
    -- the first two texts are one text, to which the rest is joined
    obtain ⟨programs, es, hread, hwhole, herase⟩ :=
      ih (readProgram_append hfirst hb hne hblank) hrest
    rw [← joinTexts_cons] at hwhole
    refine ⟨fs :: programs, es, .cons hb hread, hwhole, herase.trans ?_⟩
    have hshift : (fs.map (Datum.shiftSpans (first ++ sep).utf8ByteSize)).map Datum.eraseSpans =
        fs.map Datum.eraseSpans := by
      rw [List.map_map]
      exact List.map_congr_left fun d _ => d.eraseSpans_shiftSpans _
    simp only [List.map_append, List.flatten_cons, hshift, List.append_assoc]

/-- **A text comes to what the texts of a list come to in turn**: both runs end or neither
does, and they come to the same but for spans. -/
def ComesToSame (policy : FramePolicy) (i : Interpreter) (s : Store) (text : String)
    (texts : List String) : Prop :=
  ((∃ r t, RunsAll policy i s text r t) ↔ ∃ r t, RunsInTurn policy i s texts r t) ∧
  ∀ r t r' t', RunsAll policy i s text r t → RunsInTurn policy i s texts r' t' →
    SameRunButSpans (r, t) (r', t')

theorem comesToSame_joinTexts {first : String} {ds : List Datum}
    (hfirst : readProgram first = .ok ds) {rest : List (String × String)}
    (hrest : ∀ piece ∈ rest, IsPiece piece) :
    ComesToSame policy i s (joinTexts first rest) (first :: rest.map Prod.snd) := by
  obtain ⟨programs, es, hread, hwhole, herase⟩ := exists_readProgram_joinTexts hfirst hrest
  have hturns : Read (first :: rest.map Prod.snd) (ds :: programs) := .cons hfirst hread
  have hwhole_iff : ∀ r t, RunsAll policy i s (joinTexts first rest) r t ↔
      ∃ depth, i.evaluateAll policy depth es s = some (r, t) := by
    intro r t
    simp only [RunsAll, i.runAll_eq_evaluateAll hwhole]
  have hrel : ∀ depth, Option.Rel SameRunButSpans (i.evaluateAll policy depth es s)
      (i.evaluateAll policy depth (ds :: programs).flatten s) := by
    intro depth
    rw [List.flatten_cons]
    exact i.evaluateAll_spanBlind depth herase
  constructor
  · simp only [hwhole_iff, runsInTurn_iff hturns]
    exact exists_outcome_iff hrel
  · intro r t r' t' hl hr
    rw [hwhole_iff] at hl
    rw [runsInTurn_iff hturns] at hr
    refine outcome_rel hrel (fun h h' => ?_) hl hr
    exact Action.unique_of_below (fun hle => i.evaluateAll_mono hle _) h h'

/-- **A program may be cut between expressions.** From a text, a blank and a second text the
data of both are read, those of the second further on by what is in front of it; and running
it in any store comes to what running the two in turn comes to. So does every text that is
joined of pieces, however many. -/
theorem program_cut_between_expressions (policy : FramePolicy) (i : Interpreter) (s : Store)
    {a : String} {ds : List Datum} (ha : readProgram a = .ok ds) :
    (∀ (b sep : String) (es : List Datum), readProgram b = .ok es → sep ≠ "" →
      (∀ c ∈ sep.toList, isBlank c = true) →
      readProgram (a ++ sep ++ b) =
          .ok (ds ++ es.map (Datum.shiftSpans (a ++ sep).utf8ByteSize)) ∧
        ComesToSame policy i s (a ++ sep ++ b) [a, b]) ∧
    ∀ rest : List (String × String), (∀ piece ∈ rest, IsPiece piece) →
      ComesToSame policy i s (joinTexts a rest) (a :: rest.map Prod.snd) := by
  refine ⟨fun b sep es hb hne hsep => ⟨readProgram_append ha hb hne hsep, ?_⟩,
    fun rest hrest => comesToSame_joinTexts ha hrest⟩
  have hpiece : ∀ piece ∈ [(sep, b)], IsPiece piece :=
    List.forall_mem_singleton.mpr ⟨hne, hsep, es, hb⟩
  have hjoin : ComesToSame policy i s (joinTexts a [(sep, b)]) [a, b] :=
    comesToSame_joinTexts ha hpiece
  rw [joinTexts_cons] at hjoin
  exact hjoin

/-- `(define x (k))` and `x y`, on lines of their own or as two texts, where `k` is a list:
`x` has its value on either side of the cut, and the name `y` is found to be unbound at
another place. -/
theorem unbound_name_behind_cut :
    let i : Interpreter := ⟨0⟩
    let s : Store := ⟨#[⟨none, ⟨[("k", .list [] ⟨5, 7⟩)]⟩⟩], 0⟩
    let a := "(define x (k))"
    let unbound (span : Span) : Except Error (List Datum) := .error (.eval (.unbound "y" span))
    readProgram (a ++ "\n" ++ "x y") =
        (readProgram a).map (· ++ [.symbol "x" ⟨15, 16⟩, .symbol "y" ⟨17, 18⟩]) ∧
      ∃ t t', RunsAll .clearFinished i s (a ++ "\n" ++ "x y") (unbound ⟨17, 18⟩) t ∧
        RunsInTurn .clearFinished i s [a, "x y"] (unbound ⟨2, 3⟩) t' ∧
        SameRunButSpans (unbound ⟨17, 18⟩, t) (unbound ⟨2, 3⟩, t') := by
  intro i s a unbound
  let x : Datum := .list [.list [] ⟨11, 12⟩] ⟨10, 13⟩
  let t : Store := ⟨#[⟨none, ⟨[("k", .list [] ⟨5, 7⟩), ("x", x)]⟩⟩], 0⟩
  have htokens : Token.scan 0 a.toList = [⟨.opening, ⟨0, 1⟩⟩, ⟨.atom "define", ⟨1, 7⟩⟩,
      ⟨.atom "x", ⟨8, 9⟩⟩, ⟨.opening, ⟨10, 11⟩⟩, ⟨.atom "k", ⟨11, 12⟩⟩, ⟨.closing, ⟨12, 13⟩⟩,
      ⟨.closing, ⟨13, 14⟩⟩] := by
    unfold a
    cbv
  have ha : readProgram a = .ok [.list [.symbol "define" ⟨1, 7⟩, .symbol "x" ⟨8, 9⟩,
      .list [.symbol "k" ⟨11, 12⟩] ⟨10, 13⟩] ⟨0, 14⟩] := by
    rw [readProgram_of_scan htokens]
    cbv
  have hb : readProgram "x y" = .ok [.symbol "x" ⟨0, 1⟩, .symbol "y" ⟨2, 3⟩] := by cbv
  have hsep : ∀ c ∈ "\n".toList, isBlank c = true := List.all_eq_true.mp rfl
  obtain ⟨hread, -, hsame⟩ :=
    (program_cut_between_expressions .clearFinished i s ha).1 "x y" "\n" _ hb (by decide) hsep
  have hwhole : RunsAll .clearFinished i s (a ++ "\n" ++ "x y") (unbound ⟨17, 18⟩) t := by
    refine ⟨3, ?_⟩
    rw [i.runAll_eq_evaluateAll hread]
    unfold i s a unbound t x
    cbv
  have hfirst : RunsAll .clearFinished i s a (.ok [x]) t := by
    refine ⟨3, ?_⟩
    rw [i.runAll_eq_evaluateAll ha]
    unfold i s t x
    cbv
  have hsecond : RunsAll .clearFinished i t "x y" (unbound ⟨2, 3⟩) t := by
    refine ⟨3, ?_⟩
    rw [i.runAll_eq_evaluateAll hb]
    unfold i unbound t x
    cbv
  have hturns : RunsInTurn .clearFinished i s [a, "x y"] (unbound ⟨2, 3⟩) t :=
    .ok hfirst (.error [] hsecond)
  refine ⟨?_, t, t, hwhole, hturns, hsame _ _ _ _ hwhole hturns⟩
  rw [hread, ha]
  unfold a
  cbv

end SmallLisp
