import SmallLisp.Proofs.Number.Equality
import SmallLisp.Proofs.SpanBlind

/-!
# The equality of the language

The equality of values is a partial equivalence: symmetric and transitive, and reflexive except
where a double that is not a number comes in (`SmallLisp.Datum.holdsNaN`). It follows the shape of
values. Atoms are compared by their contents, lists element by element, and procedures by what
they are; nothing else is looked at, and no span is.

The primitive `=` compares neighbours only. Since equality is transitive, that is enough to know
that any two of its arguments are equal (`SmallLisp.Primitive.neighboursSame_iff`).
-/

namespace SmallLisp

/-! ### Atoms -/

namespace Atom

/-- Whether an atom is a double that is not a number. -/
def isNaN : Atom → Bool
  | .number x => x.isNaN
  | _ => false

theorem same_symm {a b : Atom} (h : a.same b = true) : b.same a = true := by
  cases a <;> cases b <;> simp only [same, beq_iff_eq, Bool.false_eq_true] at h ⊢
  case number.number => exact Double.beq_symm h
  all_goals exact h.symm

theorem same_trans {a b c : Atom} (hab : a.same b = true) (hbc : b.same c = true) :
    a.same c = true := by
  cases a <;> cases b <;> simp only [same, beq_iff_eq, Bool.false_eq_true] at hab
  case number.number =>
    cases c with
    | number => exact Double.beq_trans hab hbc
    | text | boolean | symbol => cases hbc
  all_goals exact hab ▸ hbc

theorem same_self_iff {a : Atom} : a.same a = true ↔ a.isNaN = false := by
  cases a with
  | number x => exact Double.beq_self_iff
  | text | boolean | symbol => simp [same, isNaN]

end Atom

/-! ### Values -/

namespace Datum

mutual

/-- **Whether a value is a double that is not a number**, or a list that holds one, at any depth.
The bodies of closures are not looked into. -/
def holdsNaN : Datum → Bool
  | .atom a _ => a.isNaN
  | .list es _ => anyHoldsNaN es
  | .primitive _ _ => false
  | .closure _ _ _ _ _ => false

/-- Whether some value of a list is or holds a double that is not a number. -/
def anyHoldsNaN : List Datum → Bool
  | [] => false
  | d :: ds => holdsNaN d || anyHoldsNaN ds

end

theorem anyHoldsNaN_eq_false_iff {ds : List Datum} :
    anyHoldsNaN ds = false ↔ ∀ d ∈ ds, d.holdsNaN = false := by
  induction ds with
  | nil => simp [anyHoldsNaN]
  | cons d ds ih => simp [anyHoldsNaN, ih]

variable {a b c : Datum}

/-- Lists of values are equal when their elements are, one by one. -/
theorem sameValues_iff {as bs : List Datum} :
    sameValues as bs = true ↔ List.Forall₂ (fun a b => a.sameValue b = true) as bs := by
  induction as generalizing bs with
  | nil => cases bs <;> simp [sameValues]
  | cons a as ih => cases bs <;> simp [sameValues, ih]

theorem sameValue_atom_iff {x : Atom} {s : Span} :
    (Datum.atom x s).sameValue b = true ↔ ∃ y t, b = .atom y t ∧ x.same y = true := by
  cases b <;> simp [sameValue]

theorem sameValue_list_iff {as : List Datum} {s : Span} :
    (Datum.list as s).sameValue b = true ↔
      ∃ bs t, b = .list bs t ∧ List.Forall₂ (fun a b => a.sameValue b = true) as bs := by
  cases b <;> simp [sameValue, sameValues_iff]

theorem sameValue_primitive_iff {p : Primitive} {s : Span} :
    (Datum.primitive p s).sameValue b = true ↔ ∃ t, b = .primitive p t := by
  cases b with
  | primitive q t => simpa [sameValue] using eq_comm
  | atom | list | closure => simp [sameValue]

theorem sameValue_closure_iff {i : Nat} {params : List String} {body : List Datum} {f : FrameId}
    {s : Span} : (Datum.closure i params body f s).sameValue b = true ↔
      ∃ params' body' g t, b = .closure i params' body' g t := by
  cases b with
  | closure j params' body' g t => simpa [sameValue] using eq_comm
  | atom | list | primitive => simp [sameValue]

theorem sameValue_symm (h : a.sameValue b = true) : b.sameValue a = true := by
  induction a using Datum.induction generalizing b with
  | atom x s =>
    obtain ⟨y, t, rfl, hxy⟩ := sameValue_atom_iff.mp h
    exact Atom.same_symm hxy
  | list as s ih =>
    obtain ⟨bs, t, rfl, hall⟩ := sameValue_list_iff.mp h
    refine sameValue_list_iff.mpr ⟨as, s, rfl, ?_⟩
    clear h
    induction hall with
    | nil => exact .nil
    | cons hab _ ihtail =>
      have htail := ihtail fun e he => ih e (List.mem_cons_of_mem _ he)
      exact .cons (ih _ List.mem_cons_self hab) htail
  | primitive p s =>
    obtain ⟨t, rfl⟩ := sameValue_primitive_iff.mp h
    exact h
  | closure i params body f s =>
    obtain ⟨params', body', g, t, rfl⟩ := sameValue_closure_iff.mp h
    exact h

theorem sameValue_comm (a b : Datum) : a.sameValue b = b.sameValue a :=
  Bool.eq_iff_iff.mpr ⟨sameValue_symm, sameValue_symm⟩

/-- **Equality is transitive.** -/
theorem sameValue_trans (hab : a.sameValue b = true) (hbc : b.sameValue c = true) :
    a.sameValue c = true := by
  induction a using Datum.induction generalizing b c with
  | atom x s =>
    obtain ⟨y, t, rfl, hxy⟩ := sameValue_atom_iff.mp hab
    obtain ⟨z, u, rfl, hyz⟩ := sameValue_atom_iff.mp hbc
    exact Atom.same_trans hxy hyz
  | list as s ih =>
    obtain ⟨bs, t, rfl, hfirst⟩ := sameValue_list_iff.mp hab
    obtain ⟨cs, u, rfl, hsecond⟩ := sameValue_list_iff.mp hbc
    refine sameValue_list_iff.mpr ⟨cs, u, rfl, ?_⟩
    clear hab hbc
    -- the three lists go on together
    induction hfirst generalizing cs with
    | nil => exact hsecond
    | cons hxy _ ihtail =>
      cases hsecond with
      | cons hyz hrest =>
        have htail := ihtail (fun e he => ih e (List.mem_cons_of_mem _ he)) _ hrest
        exact .cons (ih _ List.mem_cons_self hxy hyz) htail
  | primitive p s =>
    obtain ⟨t, rfl⟩ := sameValue_primitive_iff.mp hab
    exact sameValue_primitive_iff.mpr (sameValue_primitive_iff.mp hbc)
  | closure i params body f s =>
    obtain ⟨params', body', g, t, rfl⟩ := sameValue_closure_iff.mp hab
    exact sameValue_closure_iff.mpr (sameValue_closure_iff.mp hbc)

/-- **A value equals itself exactly if it holds no double that is not a number.** -/
theorem sameValue_self_iff (a : Datum) : a.sameValue a = true ↔ a.holdsNaN = false := by
  induction a using Datum.induction with
  | atom x s => exact Atom.same_self_iff
  | list as s ih =>
    rw [sameValue, sameValues_iff, List.forall₂_same, holdsNaN, anyHoldsNaN_eq_false_iff]
    exact forall₂_congr ih
  | primitive p s => simp [sameValue, holdsNaN]
  | closure i params body f s => simp [sameValue, holdsNaN]

/-- Data with the same erasure are equal to the same values. -/
theorem sameValue_eq_of_eraseSpans_eq {a' b' : Datum} (ha : a.eraseSpans = a'.eraseSpans)
    (hb : b.eraseSpans = b'.eraseSpans) : a.sameValue b = a'.sameValue b' := by
  refine (value_spanBlind_iff.mpr ha).sameValue_eq ?_ b b' (value_spanBlind_iff.mpr hb)
  rintro i _ j _ rfl rfl
  exact Iff.rfl

end Datum

/-! ### Equality as a primitive -/

namespace Primitive

theorem neighboursSame_iff_isChain {args : List Datum} :
    neighboursSame args = true ↔ args.IsChain fun a b => a.sameValue b = true := by
  fun_induction neighboursSame args with
  | case1 d e ds ih => rw [Bool.and_eq_true, ih, List.isChain_cons_cons]
  | case2 args hshort =>
    -- fewer than two arguments have no neighbours
    match args with
    | [] => simp
    | [d] => simp
    | d :: e :: ds => exact absurd rfl (hshort d e ds)

/-- **Where neighbours are equal, any two values are.** -/
theorem neighboursSame_iff {args : List Datum} :
    neighboursSame args = true ↔ args.Pairwise fun a b => a.sameValue b = true := by
  have htrans : IsTrans Datum fun a b => a.sameValue b = true :=
    ⟨fun _ _ _ => Datum.sameValue_trans⟩
  rw [neighboursSame_iff_isChain, List.isChain_iff_pairwise]

theorem apply_equal_of_lt {args : List Datum} (h : args.length < 2) (span : Span) :
    apply .equal args span = .error (.application (.leastArity .equal 2 args.length) span) := by
  rw [apply, if_pos h, atLeast]

theorem apply_equal_of_le {args : List Datum} (h : 2 ≤ args.length) (span : Span) :
    apply .equal args span = .ok (.boolean (neighboursSame args) span) := by
  rw [apply, if_neg h.not_gt]

end Primitive

/-- **The equality of the language is a partial equivalence that ignores spans.** It is symmetric
and transitive; values that differ only in their spans, at any depth, are equal to the same
values; and a value equals itself exactly if it holds no double that is not a number. So the
primitive says of two or more values that they are equal exactly if any two of them are; fewer
than two are an error at the call. -/
theorem equality_is_partial_equivalence :
    (∀ a b : Datum, a.sameValue b = b.sameValue a) ∧
    (∀ a b c : Datum, a.sameValue b = true → b.sameValue c = true → a.sameValue c = true) ∧
    (∀ a a' b b' : Datum, a.eraseSpans = a'.eraseSpans → b.eraseSpans = b'.eraseSpans →
      a.sameValue b = a'.sameValue b') ∧
    (∀ a : Datum, a.sameValue a = true ↔ a.holdsNaN = false) ∧
    ∀ (args : List Datum) (span : Span),
      (args.length < 2 → Primitive.equal.apply args span =
        .error (.application (.leastArity .equal 2 args.length) span)) ∧
      (2 ≤ args.length → ∃ equal, Primitive.equal.apply args span = .ok (.boolean equal span) ∧
        (equal = true ↔ ∀ i j (_ : i < j) (_ : j < args.length),
          args[i].sameValue args[j] = true)) := by
  refine ⟨Datum.sameValue_comm, fun a b c => Datum.sameValue_trans,
    fun a a' b b' => Datum.sameValue_eq_of_eraseSpans_eq, Datum.sameValue_self_iff, ?_⟩
  intro args span
  refine ⟨fun h => Primitive.apply_equal_of_lt h span, fun h => ?_⟩
  refine ⟨_, Primitive.apply_equal_of_le h span, ?_⟩
  rw [Primitive.neighboursSame_iff, List.pairwise_iff_getElem]
  exact ⟨fun hall i j hij hj => hall i j (hij.trans hj) hj hij,
    fun hall i j _ hj hij => hall i j hij hj⟩

/-- Three lists that hold zeros, the second of them the negative one, are equal wherever they stand;
and a list that holds what is not a number does not equal itself. -/
theorem zeros_in_lists_are_equal :
    let box (x : Float) (s : Span) : Datum := .list [.number x s] s
    let args := [box 0 ⟨0, 1⟩, box (-0) ⟨2, 4⟩, box 0 ⟨5, 6⟩]
    Primitive.equal.apply args Span.none = .ok (.boolean true Span.none) ∧
    (box 0 ⟨0, 1⟩).sameValue (box 0 ⟨5, 6⟩) = true ∧
    ¬(box (0 / 0) ⟨0, 1⟩).sameValue (box (0 / 0) ⟨0, 1⟩) = true := by
  intro box args
  obtain ⟨-, -, -, hself, hequal⟩ := equality_is_partial_equivalence
  have htrue : Primitive.equal.apply args Span.none = .ok (.boolean true Span.none) := by
    unfold args box
    rfl
  obtain ⟨equal, happly, hiff⟩ := (hequal args Span.none).2 (by unfold args; decide)
  obtain rfl : equal = true := by simpa [htrue] using happly.symm
  refine ⟨htrue, hiff.mp rfl 0 2 (by decide) (by unfold args; decide), ?_⟩
  rw [hself]
  unfold box
  decide +kernel

end SmallLisp
