import SmallLisp.Eval.SpecialForm

/-!
# What special forms are made of

`SmallLisp.SpecialForm.ofOperands` refuses operands of the wrong shape. Read
backwards, an accepted form says what its operands were
(`SmallLisp.SpecialForm.MadeOf`), one constructor for each shape; a case split on it
stands in for the checks of the five keywords.
-/

namespace SmallLisp

/-- A sequence of two computations succeeds when both do. -/
theorem except_bind_eq_ok_iff {ε α β : Type} {x : Except ε α} {f : α → Except ε β} {b : β} :
    (x >>= f) = .ok b ↔ ∃ a, x = .ok a ∧ f a = .ok b := by
  cases x <;> simp [bind, Except.bind]

theorem except_mapError_eq_ok_iff {ε δ α : Type} {x : Except ε α} {f : ε → δ} {a : α} :
    x.mapError f = .ok a ↔ x = .ok a := by
  cases x with
  | error e => exact ⟨nofun, nofun⟩
  | ok b =>
    exact ⟨fun h => congrArg _ (Except.ok.inj h), fun h => congrArg _ (Except.ok.inj h)⟩

namespace SpecialForm

theorem symbolName_eq_ok_iff {d : Datum} {name : String} :
    symbolName d = .ok name ↔ ∃ span, d = .symbol name span := by
  rcases d with ⟨_ | _ | _ | n, span⟩ | _ | _ | _ <;> simp [symbolName]

/-- **What each special form is made of**: the operands that its keyword takes. -/
inductive MadeOf : Keyword → List Datum → SpecialForm → Prop
  | letStar {pairs : List Datum} {bindings : List (String × Datum)} {a : Span} {body : Datum} :
    bindingPairs pairs = .ok bindings →
      MadeOf .letStar [.list pairs a, body] (.letStar bindings body)
  | define {name : String} {a : Span} {value : Datum} :
    MadeOf .define [.symbol name a, value] (.define name value)
  | oneArmed {c d : Datum} : MadeOf .conditional [c, d] (.conditional c d none)
  | twoArmed {c d e : Datum} : MadeOf .conditional [c, d, e] (.conditional c d (some e))
  | lambda {params : List Datum} {names : List String} {a : Span} {body : List Datum} :
    symbolNames params = .ok names → MadeOf .lambda (.list params a :: body) (.lambda names body)
  | quote {d : Datum} : MadeOf .quote [d] (.quote d)

/-- Only such operands are accepted. -/
theorem madeOf_of_ofOperands {keyword : Keyword} {ds : List Datum} {span : Span}
    {form : SpecialForm} (h : ofOperands keyword ds span = .ok form) : MadeOf keyword ds form := by
  cases keyword with
  | letStar =>
    simp only [ofOperands, ofLetStar.eq_def] at h
    split at h
    · -- bindings that do not come in pairs are refused before they are looked at
      split at h
      · obtain ⟨bindings, hb, hform⟩ := except_bind_eq_ok_iff.mp h
        cases hform
        exact .letStar hb
      · cases h
    · cases h
    · cases h
  | define =>
    simp only [ofOperands, ofDefine.eq_def] at h
    split at h
    · obtain ⟨name, hname, hform⟩ := except_bind_eq_ok_iff.mp h
      obtain ⟨a, rfl⟩ := symbolName_eq_ok_iff.mp hname
      cases hform
      exact .define
    · cases h
  | conditional =>
    simp only [ofOperands, ofConditional.eq_def] at h
    split at h <;> cases h
    · exact .oneArmed
    · exact .twoArmed
  | lambda =>
    simp only [ofOperands, ofLambda.eq_def] at h
    split at h
    · cases h
    · cases h
    · obtain ⟨names, hnames, hform⟩ := except_bind_eq_ok_iff.mp h
      cases hform
      exact .lambda hnames
    · cases h
  | quote =>
    simp only [ofOperands, ofQuote.eq_def] at h
    split at h <;> cases h
    exact .quote

end SpecialForm

end SmallLisp
