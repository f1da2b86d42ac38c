import SmallLisp.Proofs.Likeness.Exact
import SmallLisp.Session

/-!
# What can be seen of an answer

The numbers of frames and the identities of closures are not printed. What can be seen
of a value is its printed form, and the value without these numbers
(`SmallLisp.Datum.anonymous`): its kind, its elements, its spans at every depth, the
parameters and the bodies of closures. Of an error it is the text, the span and the
cause. `SmallLisp.Session.seen` puts this together for the answers of a session.

Data that are alike on exact terms look the same
(`SmallLisp.Terms.anonymous_eq_of_value`).
-/

namespace SmallLisp

/-! ### Without identities -/

namespace Datum

mutual

/-- **A datum without the identities of its closures** and the frames they captured. -/
def anonymous : Datum → Datum
  | .atom a s => .atom a s
  | .list es s => .list (anonymousAll es) s
  | .primitive p s => .primitive p s
  | .closure _ params body _ s => .closure 0 params (anonymousAll body) 0 s

/-- The data of a list without identities. -/
def anonymousAll : List Datum → List Datum
  | [] => []
  | d :: ds => anonymous d :: anonymousAll ds

end

theorem anonymousAll_eq (ds : List Datum) : anonymousAll ds = ds.map anonymous := by
  induction ds with
  | nil => rfl
  | cons d ds ih => rw [anonymousAll, ih, List.map_cons]

end Datum

/-- An error without identities. -/
def EvalError.anonymous : EvalError → EvalError
  | .notSymbol found => .notSymbol found.anonymous
  | e => e

/-- What can be seen of an error: its text, its span and its cause. -/
def Error.seen : Error → String × Span × Error
  | .read e => (e.message, e.span, .read e)
  | .eval e => (e.message, e.span, .eval e.anonymous)

namespace Session

/-- What can be seen of a reply: the printed forms of the values in it, and the reply
itself without identities. -/
def Reply.seen : Reply → List String × Reply
  | .datum d => ([d.render], .datum d.anonymous)
  | .data ds => (ds.map Datum.render, .data (ds.map Datum.anonymous))
  | r => ([], r)

/-- **What can be seen of an answer.** -/
def seen : Answer → Except (String × Span × Error) (List String × Reply)
  | .ok r => .ok r.seen
  | .error e => .error e.seen

end Session

/-! ### Data that look the same -/

namespace Terms

variable {P Q : Pairing}

theorem anonymous_eq_of_code {d e : Datum} (h : exact.Code P d e) : d.anonymous = e.anonymous := by
  refine Code.induction ?_ ?_ ?_ ?_ h
  · rintro a s _ - rfl
    rfl
  · rintro ds es s _ ih rfl
    rw [Datum.anonymous, Datum.anonymous, Datum.anonymousAll_eq, Datum.anonymousAll_eq,
      map_eq_map_of_forall₂ ih]
  · rintro p s _ rfl
    rfl
  · rintro i j params ds es f g s _ - - - - ih rfl
    rw [Datum.anonymous, Datum.anonymous, Datum.anonymousAll_eq, Datum.anonymousAll_eq,
      map_eq_map_of_forall₂ ih]

/-- **Like values look the same.** -/
theorem anonymous_eq_of_value {d e : Datum} (h : exact.Value P Q d e) :
    d.anonymous = e.anonymous := by
  refine Value.induction ?_ ?_ ?_ ?_ h
  · rintro a s _ rfl
    rfl
  · rintro ds es s _ ih rfl
    rw [Datum.anonymous, Datum.anonymous, Datum.anonymousAll_eq, Datum.anonymousAll_eq,
      map_eq_map_of_forall₂ ih]
  · rintro p s _ rfl
    rfl
  · rintro i j params ds es f g s _ - - - hbody rfl
    have hbodies := hbody.imp fun _ _ hde => anonymous_eq_of_code hde
    rw [Datum.anonymous, Datum.anonymous, Datum.anonymousAll_eq, Datum.anonymousAll_eq,
      map_eq_map_of_forall₂ hbodies]

theorem seen_datum_eq {d e : Datum} (h : exact.Value P Q d e) :
    (Session.Reply.datum d).seen = (Session.Reply.datum e).seen := by
  rw [Session.Reply.seen, Session.Reply.seen, h.render_eq, anonymous_eq_of_value h]

theorem seen_data_eq {ds es : List Datum} (h : List.Forall₂ (exact.Value P Q) ds es) :
    (Session.Reply.data ds).seen = (Session.Reply.data es).seen := by
  have htexts := map_eq_map_of_forall₂ (h.imp fun _ _ hde => hde.render_eq)
  have hforms := map_eq_map_of_forall₂ (h.imp fun _ _ hde => anonymous_eq_of_value hde)
  rw [Session.Reply.seen, Session.Reply.seen, htexts, hforms]

theorem seen_error_eq {e e' : EvalError} (h : exact.Failure P e e') :
    (Error.eval e).seen = (Error.eval e').seen := by
  have hspan : e.span = e'.span := h.span
  have hcause : e.anonymous = e'.anonymous := by
    cases h with
    | notSymbol hfound =>
      rw [EvalError.anonymous, EvalError.anonymous, anonymous_eq_of_code hfound]
    | unbound hs | application hs | malformed hs =>
      obtain rfl := hs
      rfl
  rw [Error.seen, Error.seen, h.message_eq, hspan, hcause]

end Terms

end SmallLisp
