import SmallLisp.Eval.Error

/-!
# What a message tells

The message of an error is put together from fixed words and from the data of the error: names,
numerals and the words for kinds of values. It can be taken apart again, since each part ends where
the first character stands that is not of its class (`SmallLisp.append_inj_of_class`): a numeral at
the first that is no digit, and the name of a primitive at the quote behind it.

* `SmallLisp.ApplyFault.message_injective` – the message of a fault tells the fault: the primitive,
  the position and the kind of what was found there, or the numbers of arguments;
* `SmallLisp.EvalError.message_eq_iff` – **a message tells what has gone wrong**. Where it has gone
  wrong is for the span to say, and a value that stands where a name is needed is named as it
  prints.
-/

namespace SmallLisp

/-! ### Words and numerals -/

/-- **Where a part of a text ends.** The part has characters of a class only, and what follows
begins with none of the class. -/
theorem append_inj_of_class {p : Char → Bool} {a b c d : List Char} (ha : ∀ x ∈ a, p x = true)
    (hc : ∀ x ∈ c, p x = true) (hb : ∀ x ∈ b.head?, p x = false) (hd : ∀ x ∈ d.head?, p x = false)
    (h : a ++ b = c ++ d) : a = c ∧ b = d := by
  induction a generalizing c with
  | nil =>
    cases c with
    | nil => exact ⟨rfl, h⟩
    | cons x c =>
      obtain rfl : b = x :: (c ++ d) := h
      exact absurd (hc x List.mem_cons_self) (by simp [hb x rfl])
  | cons x a ih =>
    cases c with
    | nil =>
      obtain rfl : x :: (a ++ b) = d := h
      exact absurd (ha x List.mem_cons_self) (by simp [hd x rfl])
    | cons y c =>
      obtain ⟨rfl, hrest⟩ := List.cons.inj h
      obtain ⟨rfl, rfl⟩ := ih (List.forall_mem_cons.mp ha).2 (List.forall_mem_cons.mp hc).2 hrest
      exact ⟨rfl, rfl⟩

/-- A numeral goes on up to the first character that is no digit. -/
theorem numeral_append_inj {m n : Nat} {b d : List Char} (hb : ∀ x ∈ b.head?, x.isDigit = false)
    (hd : ∀ x ∈ d.head?, x.isDigit = false)
    (h : (toString m).toList ++ b = (toString n).toList ++ d) : m = n ∧ b = d := by
  have hdigits : ∀ n : Nat, ∀ x ∈ Nat.toDigits 10 n, x.isDigit = true := fun n x hx =>
    Nat.isDigit_of_mem_toDigits (by decide) (by decide) hx
  simp only [Nat.toString_eq_repr, Nat.toList_repr] at h
  obtain ⟨hnumeral, hrest⟩ := append_inj_of_class (hdigits m) (hdigits n) hb hd h
  refine ⟨?_, hrest⟩
  rw [← @Nat.ofDigitChars_ten_toDigits m, hnumeral, Nat.ofDigitChars_ten_toDigits]

/-- The name of a primitive goes on up to the quote behind it. -/
theorem Primitive.name_append_inj {p q : Primitive} {b d : List Char}
    (hb : b.head? = some '\'') (hd : d.head? = some '\'')
    (h : p.name.toList ++ b = q.name.toList ++ d) : p = q ∧ b = d := by
  have hname : ∀ p : Primitive, ∀ x ∈ p.name.toList, (x != '\'') = true := by
    intro p
    cases p <;> simp [name]
  obtain ⟨hpq, hrest⟩ :=
    append_inj_of_class (hname p) (hname q) (by simp [hb]) (by simp [hd]) h
  exact ⟨Primitive.name_injective (String.toList_inj.mp hpq), hrest⟩

/-- A kind is determined by its word. -/
theorem Datum.Kind.name_injective {k l : Datum.Kind} (h : k.name = l.name) : k = l := by
  revert h
  cases k <;> cases l <;> decide

/-! ### Applications -/

namespace ApplyFault

/-- The primitive that the message of a fault names. -/
def primitive? : ApplyFault → Option Primitive
  | exactArity p _ _ | leastArity p _ _ | notNumber p _ _ | notList p _ => some p
  | divisionByZero | carOfEmpty | closureArity _ _ => none

/-- What the message of a fault says, from the quote on that stands behind the name of a primitive,
or all of it if it names none. -/
def complaint : ApplyFault → List Char
  | exactArity _ expected got =>
    "' expects exactly ".toList ++ ((toString expected).toList ++
      (" arguments, got ".toList ++ (toString got).toList))
  | leastArity _ expected got =>
    "' expects at least ".toList ++ ((toString expected).toList ++
      (" arguments, got ".toList ++ (toString got).toList))
  | notNumber _ position found =>
    "' expects a number for argument ".toList ++ ((toString position).toList ++
      (", got ".toList ++ found.name.toList))
  | notList _ found => "' expects a list, got ".toList ++ found.name.toList
  | divisionByZero => "Division by zero".toList
  | carOfEmpty => "car: Cannot take car of empty list".toList
  | closureArity expected got =>
    "lambda expects exactly ".toList ++ ((toString expected).toList ++
      (" arguments, got ".toList ++ (toString got).toList))

variable {f g : ApplyFault}

/-- The message names the primitive first. -/
theorem toList_message_of_primitive? {p : Primitive} (h : f.primitive? = some p) :
    f.message.toList = "Primitive '".toList ++ (p.name.toList ++ f.complaint) := by
  unfold message complaint
  cases f <;> cases h <;> simp only [String.toList_append, List.append_assoc]

theorem toList_message_of_primitive?_eq_none (h : f.primitive? = none) :
    f.message.toList = f.complaint := by
  unfold message complaint
  cases f <;> cases h <;> simp only [String.toList_append, List.append_assoc]

theorem head?_complaint {p : Primitive} (h : f.primitive? = some p) :
    f.complaint.head? = some '\'' := by
  cases f <;> cases h <;> rfl

/-- Two numbers of arguments in a message. -/
theorem arity_inj {m n m' n' : Nat}
    (h : (toString m).toList ++ (" arguments, got ".toList ++ (toString n).toList) =
      (toString m').toList ++ (" arguments, got ".toList ++ (toString n').toList)) :
    m = m' ∧ n = n' := by
  obtain ⟨rfl, hgot⟩ := numeral_append_inj (by simp) (by simp) h
  have hn : (toString n).toList ++ [] = (toString n').toList ++ [] := by simpa using hgot
  exact ⟨rfl, (numeral_append_inj (by simp) (by simp) hn).1⟩

/-- **A fault is determined by the primitive and by what is said of it.** -/
theorem eq_of_complaint (hprimitive : f.primitive? = g.primitive?)
    (h : f.complaint = g.complaint) : f = g := by
  unfold complaint at h
  cases f <;> cases g <;> cases hprimitive
  case exactArity.exactArity.refl | leastArity.leastArity.refl | closureArity.closureArity.refl =>
    obtain ⟨rfl, rfl⟩ := arity_inj (List.append_cancel_left h)
    rfl
  case notNumber.notNumber.refl =>
    obtain ⟨rfl, hgot⟩ := numeral_append_inj (by simp) (by simp) (List.append_cancel_left h)
    rw [Datum.Kind.name_injective (String.toList_inj.mp (List.append_cancel_left hgot))]
  case notList.notList.refl =>
    rw [Datum.Kind.name_injective (String.toList_inj.mp (List.append_cancel_left h))]
  case divisionByZero.divisionByZero.refl | carOfEmpty.carOfEmpty.refl => rfl
  -- the words of two kinds of fault differ
  all_goals simp at h

/-- **The message of a fault tells the fault.** -/
theorem message_injective (h : f.message = g.message) : f = g := by
  have hchars := congrArg String.toList h
  rcases hf : f.primitive? with - | p <;> rcases hg : g.primitive? with - | q
  · rw [toList_message_of_primitive?_eq_none hf, toList_message_of_primitive?_eq_none hg] at hchars
    exact eq_of_complaint (hf.trans hg.symm) hchars
  · rw [toList_message_of_primitive?_eq_none hf, toList_message_of_primitive? hg] at hchars
    cases f <;> cases hf <;> cases hchars
  · rw [toList_message_of_primitive? hf, toList_message_of_primitive?_eq_none hg] at hchars
    cases g <;> cases hg <;> cases hchars
  · rw [toList_message_of_primitive? hf, toList_message_of_primitive? hg] at hchars
    obtain ⟨rfl, hrest⟩ := Primitive.name_append_inj (head?_complaint hf) (head?_complaint hg)
      (List.append_cancel_left hchars)
    exact eq_of_complaint (hf.trans hg.symm) hrest

/-- A message begins with the word for a primitive, or in one of three other ways. -/
theorem exists_head?_message (f : ApplyFault) :
    ∃ c ∈ ['P', 'D', 'c', 'l'], f.message.toList.head? = some c := by
  rcases hf : f.primitive? with - | p
  · rw [toList_message_of_primitive?_eq_none hf]
    cases f <;> cases hf
    · exact ⟨'D', by simp, rfl⟩
    · exact ⟨'c', by simp, rfl⟩
    · exact ⟨'l', by simp, rfl⟩
  · rw [toList_message_of_primitive? hf]
    exact ⟨'P', by simp, rfl⟩

end ApplyFault

/-- The message of a fault of a special form tells the fault. -/
theorem FormFault.message_injective {f g : FormFault} (h : f.message = g.message) : f = g := by
  revert h
  cases f <;> cases g <;> decide

/-! ### Errors of evaluation -/

namespace EvalError

/-- **Two errors have the same cause**: they differ at most in where they are, and in a value that
stands where a name is needed, in what is not printed of it. -/
inductive SameCause : EvalError → EvalError → Prop
  | unbound (name : String) (s t : Span) : SameCause (.unbound name s) (.unbound name t)
  | application (fault : ApplyFault) (s t : Span) :
    SameCause (.application fault s) (.application fault t)
  | notSymbol {d d' : Datum} (h : d.render = d'.render) : SameCause (.notSymbol d) (.notSymbol d')
  | malformed (fault : FormFault) (s t : Span) : SameCause (.malformed fault s) (.malformed fault t)

/-- The message of a fault begins like none of the other messages. -/
theorem toList_message_ne_cons (fault : ApplyFault) {c : Char} (hc : c ∉ ['P', 'D', 'c', 'l'])
    (cs : List Char) : fault.message.toList ≠ c :: cs := by
  intro h
  obtain ⟨c', hc', hhead⟩ := fault.exists_head?_message
  rw [h, List.head?_cons, Option.some.injEq] at hhead
  exact hc (hhead ▸ hc')

/-- **A message tells what has gone wrong.** -/
theorem message_eq_iff {e e' : EvalError} : e.message = e'.message ↔ SameCause e e' := by
  constructor
  · intro h
    unfold message at h
    cases e <;> cases e'
    case unbound.unbound name s name' t =>
      obtain rfl : name = name' :=
        (String.append_right_inj _).mp ((String.append_left_inj _).mp h)
      exact .unbound name s t
    case application.application fault s fault' t =>
      obtain rfl := ApplyFault.message_injective ((String.append_right_inj _).mp h)
      exact .application fault s t
    case notSymbol.notSymbol d d' => exact .notSymbol ((String.append_right_inj _).mp h)
    case malformed.malformed fault s fault' t =>
      obtain rfl := FormFault.message_injective ((String.append_right_inj _).mp h)
      exact .malformed fault s t
    -- what is left are messages of two kinds, which begin with different words
    all_goals
      have hchars := congrArg String.toList h
      dsimp only at hchars
      simp [toList_message_ne_cons, (toList_message_ne_cons _ _ _).symm] at hchars
  · rintro (_ | _ | ⟨h⟩ | _)
    · rfl
    · rfl
    · exact congrArg ("Evaluation Error: Expected a symbol, but got: " ++ ·) h
    · rfl

end EvalError

end SmallLisp
