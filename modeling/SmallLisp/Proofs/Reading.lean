import SmallLisp.Reader

/-!
# What is read

Reading makes atoms out of the texts of tokens, and lists out of data that have been
read before. So a property of these atoms that passes from data to lists of them holds
of everything that is read (`SmallLisp.readFrom_induction`). In particular no closure
is ever read (`SmallLisp.holdsClosure_of_readFirst`).
-/

namespace SmallLisp

section Induction

variable {motive : Datum → Prop} (atom : ∀ text span, motive (.atom (.ofText text) span))
  (list : ∀ elements span, (∀ e ∈ elements, motive e) → motive (.list elements span))

include atom list

/-- **Induction on what is read.** What holds of the elements of the open lists and of
the atoms to come holds of the expression in the end. -/
theorem readFrom_induction (pending : List OpenList) (tokens : List Token)
    (hpending : ∀ o ∈ pending, ∀ e ∈ o.elements, motive e) {d : Datum}
    (h : (readFrom pending tokens).1 = .ok d) : motive d := by
  fun_induction readFrom pending tokens with
  | case1 | case2 | case4 => cases h
  -- a list is opened, with no elements yet
  | case3 pending span tokens ih =>
    refine ih (List.forall_mem_cons.mpr ⟨?_, hpending⟩) h
    exact fun e he => absurd he List.not_mem_nil
  -- the outermost list is closed, and is what is read
  | case5 o span tokens =>
    obtain rfl := Except.ok.inj h
    refine list _ _ fun e he => ?_
    exact hpending o List.mem_cons_self e (List.mem_reverse.mp he)
  -- a list is closed inside another one, and becomes an element of it
  | case6 o p pending span tokens ih =>
    obtain ⟨ho, hpending⟩ := List.forall_mem_cons.mp hpending
    obtain ⟨hp, hpending⟩ := List.forall_mem_cons.mp hpending
    refine ih (List.forall_mem_cons.mpr ⟨?_, hpending⟩) h
    have hclosed : motive (o.close span) := list _ _ fun e he => ho e (List.mem_reverse.mp he)
    exact List.forall_mem_cons.mpr ⟨hclosed, hp⟩
  -- an atom on its own, and an atom in a list
  | case7 text span tokens =>
    obtain rfl := Except.ok.inj h
    exact atom text span
  | case8 o pending text span tokens ih =>
    obtain ⟨ho, hpending⟩ := List.forall_mem_cons.mp hpending
    refine ih (List.forall_mem_cons.mpr ⟨?_, hpending⟩) h
    exact List.forall_mem_cons.mpr ⟨atom text span, ho⟩

theorem readAll_induction (tokens : List Token) {ds : List Datum} (h : readAll tokens = .ok ds) :
    ∀ d ∈ ds, motive d := by
  fun_induction readAll tokens generalizing ds with
  | case1 =>
    obtain rfl := Except.ok.inj h
    exact fun d hd => absurd hd List.not_mem_nil
  | case2 => cases h
  | case3 tokens _ _ d hd ih =>
    rcases hrest : readAll (readExpr tokens).2 with e | es
    · rw [hrest] at h
      cases h
    · rw [hrest] at h
      obtain rfl := Except.ok.inj h
      have hfirst := readFrom_induction atom list [] tokens
        (fun o ho => absurd ho List.not_mem_nil) hd
      exact List.forall_mem_cons.mpr ⟨hfirst, ih hrest⟩

theorem readProgram_induction {text : String} {ds : List Datum} (h : readProgram text = .ok ds) :
    ∀ d ∈ ds, motive d := by
  rw [readProgram] at h
  rcases htokens : tokenize text with e | tokens
  · rw [htokens] at h
    cases h
  · rw [htokens] at h
    exact readAll_induction atom list tokens h

theorem readFirst_induction {text : String} {d : Datum} (h : readFirst text = .ok d) :
    motive d := by
  rw [readFirst] at h
  split at h
  · cases h
  · next e es hprogram =>
    obtain rfl := Except.ok.inj h
    exact readProgram_induction atom list hprogram e List.mem_cons_self
  · cases h

end Induction

/-- A list of data that hold no closure holds none. -/
theorem holdsClosure_list_eq_false (es : List Datum) (span : Span)
    (h : ∀ e ∈ es, e.holdsClosure = false) : (Datum.list es span).holdsClosure = false := by
  rw [Datum.holdsClosure_list, List.any_eq_false]
  exact fun e he => Bool.eq_false_iff.mp (h e he)

/-- **No closure is read.** -/
theorem holdsClosure_of_readProgram {text : String} {ds : List Datum}
    (h : readProgram text = .ok ds) : ∀ d ∈ ds, d.holdsClosure = false :=
  readProgram_induction (fun _ _ => rfl) holdsClosure_list_eq_false h

theorem holdsClosure_of_readFirst {text : String} {d : Datum} (h : readFirst text = .ok d) :
    d.holdsClosure = false :=
  readFirst_induction (fun _ _ => rfl) holdsClosure_list_eq_false h

end SmallLisp
