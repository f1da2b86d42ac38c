import SmallLisp.Eval.SpecialForm
import SmallLisp.Proofs.Likeness.Basic

/-!
# Special forms of programs that are alike

Like programs start with the same keyword (`SmallLisp.Terms.Code.keyword?_eq`), and
like operands of a keyword make like special forms, or are refused for the same
reason (`SmallLisp.SpecialForm.ofOperands_outcome`). The names that a form binds are
names of its program, so they are allowed.
-/

namespace SmallLisp

namespace Terms

variable {T : Terms} {P : Pairing}

theorem Code.keyword?_eq {d e : Datum} (h : T.Code P d e) : d.keyword? = e.keyword? := by
  cases h with
  | @atom a => cases a <;> rfl
  | list | primitive | closure => rfl

/-- Bindings of the same name to programs that are alike. -/
structure BindingLike (T : Terms) (P : Pairing) (b c : String × Datum) : Prop where
  name_eq : c.1 = b.1
  allowed : T.name b.1
  code : T.Code P b.2 c.2

/-- **Special forms that are alike.** -/
inductive FormLike (T : Terms) (P : Pairing) : SpecialForm → SpecialForm → Prop
  | letStar {bs cs : List (String × Datum)} {d e : Datum}
    (hbindings : List.Forall₂ (T.BindingLike P) bs cs) (hbody : T.Code P d e) :
    FormLike T P (.letStar bs d) (.letStar cs e)
  | define {name : String} {d e : Datum} (hname : T.name name) (hvalue : T.Code P d e) :
    FormLike T P (.define name d) (.define name e)
  | conditional {c c' d d' : Datum} {a a' : Option Datum} (hcondition : T.Code P c c')
    (hconsequent : T.Code P d d') (halternate : Option.Rel (T.Code P) a a') :
    FormLike T P (.conditional c d a) (.conditional c' d' a')
  | lambda {params : List String} {ds es : List Datum} (hparams : ∀ x ∈ params, T.name x)
    (hbody : List.Forall₂ (T.Code P) ds es) : FormLike T P (.lambda params ds) (.lambda params es)
  | quote {d e : Datum} (hdatum : T.Code P d e) : FormLike T P (.quote d) (.quote e)

end Terms

namespace SpecialForm

open Terms

variable {T : Terms} {P : Pairing} {d e : Datum} {ds es : List Datum} {s t : Span}

/-! ### Names -/

theorem symbolName_outcome (h : T.Code P d e) :
    T.Outcome P (fun x y => y = x ∧ T.name x) (symbolName d) (symbolName e) := by
  have hfound := h
  cases h with
  | @atom a _ _ hname _ =>
    cases a with
    | symbol x => exact .ok ⟨rfl, hname x rfl⟩
    | number | text | boolean => exact .error (.notSymbol hfound)
  | list | primitive | closure => exact .error (.notSymbol hfound)

theorem symbolNames_outcome (h : List.Forall₂ (T.Code P) ds es) :
    T.Outcome P (fun xs ys => ys = xs ∧ ∀ x ∈ xs, T.name x) (symbolNames ds) (symbolNames es) := by
  induction h with
  | nil => exact .ok ⟨rfl, by simp⟩
  | cons hd _ ih =>
    refine (symbolName_outcome hd).bind ?_
    rintro x _ ⟨rfl, hx⟩
    refine ih.bind ?_
    rintro xs _ ⟨rfl, hxs⟩
    exact .ok ⟨rfl, List.forall_mem_cons.mpr ⟨hx, hxs⟩⟩

theorem bindingPairs_outcome (h : List.Forall₂ (T.Code P) ds es) :
    T.Outcome P (List.Forall₂ (T.BindingLike P)) (bindingPairs ds) (bindingPairs es) := by
  fun_induction bindingPairs ds generalizing es with
  | case1 name value ds ih =>
    cases h with
    | cons hname h =>
      cases h with
      | cons hvalue h =>
        refine (symbolName_outcome hname).bind ?_
        rintro x _ ⟨rfl, hx⟩
        refine (ih h).bind ?_
        exact fun bs cs hbs => .ok (.cons ⟨rfl, hx, hvalue⟩ hbs)
  | case2 ds hds =>
    -- nothing is left, or a name without a value
    cases h with
    | nil => exact .ok .nil
    | cons _ h =>
      cases h with
      | nil => exact .ok .nil
      | cons => exact absurd rfl (hds _ _ _)

/-! ### Forms -/

theorem ofLetStar_outcome (h : List.Forall₂ (T.Code P) ds es) (hspan : T.span s t) :
    T.Outcome P (T.FormLike P) (ofLetStar s ds) (ofLetStar t es) := by
  cases h with
  | nil => exact .error (.malformed hspan)
  | cons hd h =>
    cases h with
    | nil => cases hd <;> exact .error (.malformed hspan)
    | cons hbody h =>
      cases h with
      | cons => cases hd <;> exact .error (.malformed hspan)
      | nil =>
        cases hd with
        | list hpairs _ =>
          rw [ofLetStar, ofLetStar, hpairs.length_eq]
          split
          · refine (bindingPairs_outcome hpairs).bind ?_
            exact fun bs cs hbs => .ok (.letStar hbs hbody)
          · exact .error (.malformed hspan)
        | atom | primitive | closure => exact .error (.malformed hspan)

theorem ofDefine_outcome (h : List.Forall₂ (T.Code P) ds es) (hspan : T.span s t) :
    T.Outcome P (T.FormLike P) (ofDefine s ds) (ofDefine t es) := by
  cases h with
  | nil => exact .error (.malformed hspan)
  | cons hname h =>
    cases h with
    | nil => exact .error (.malformed hspan)
    | cons hvalue h =>
      cases h with
      | nil =>
        refine (symbolName_outcome hname).bind ?_
        rintro x _ ⟨rfl, hx⟩
        exact .ok (.define hx hvalue)
      | cons => exact .error (.malformed hspan)

theorem ofConditional_outcome (h : List.Forall₂ (T.Code P) ds es) (hspan : T.span s t) :
    T.Outcome P (T.FormLike P) (ofConditional s ds) (ofConditional t es) := by
  cases h with
  | nil => exact .error (.malformed hspan)
  | cons hcondition h =>
    cases h with
    | nil => exact .error (.malformed hspan)
    | cons hconsequent h =>
      cases h with
      | nil => exact .ok (.conditional hcondition hconsequent .none)
      | cons halternate h =>
        cases h with
        | nil => exact .ok (.conditional hcondition hconsequent (.some halternate))
        | cons => exact .error (.malformed hspan)

theorem ofLambda_outcome (h : List.Forall₂ (T.Code P) ds es) (hspan : T.span s t) :
    T.Outcome P (T.FormLike P) (ofLambda s ds) (ofLambda t es) := by
  cases h with
  | nil => exact .error (.malformed hspan)
  | cons hparams hbody =>
    cases hbody with
    | nil => cases hparams <;> exact .error (.malformed hspan)
    | cons hd hbody =>
      cases hparams with
      | list hparams _ =>
        refine (symbolNames_outcome hparams).bind ?_
        rintro xs _ ⟨rfl, hxs⟩
        exact .ok (.lambda hxs (.cons hd hbody))
      | atom | primitive | closure => exact .error (.malformed hspan)

theorem ofQuote_outcome (h : List.Forall₂ (T.Code P) ds es) (hspan : T.span s t) :
    T.Outcome P (T.FormLike P) (ofQuote s ds) (ofQuote t es) := by
  cases h with
  | nil => exact .error (.malformed hspan)
  | cons hd h =>
    cases h with
    | nil => exact .ok (.quote hd)
    | cons => exact .error (.malformed hspan)

/-- **Like operands of a keyword make like special forms**, or are refused for the
same reason. -/
theorem ofOperands_outcome (keyword : Keyword) (h : List.Forall₂ (T.Code P) ds es)
    (hspan : T.span s t) :
    T.Outcome P (T.FormLike P) (ofOperands keyword ds s) (ofOperands keyword es t) := by
  cases keyword with
  | letStar => exact ofLetStar_outcome h hspan
  | define => exact ofDefine_outcome h hspan
  | conditional => exact ofConditional_outcome h hspan
  | lambda => exact ofLambda_outcome h hspan
  | quote => exact ofQuote_outcome h hspan

end SpecialForm

end SmallLisp
