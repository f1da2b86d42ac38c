import SmallLisp.Eval.Error

/-!
# Special forms

A list whose first element is one of five symbols is a special form: its operands
are not evaluated as arguments, and the symbol is not looked up, whatever it may be
bound to. `SmallLisp.SpecialForm.ofOperands` checks the operands and takes them
apart before anything is evaluated, so that a malformed form has no effect.
-/

namespace SmallLisp

/-! ### Keywords -/

/-- The symbols that make a list a special form. -/
inductive Keyword where
  | letStar
  | define
  | conditional
  | lambda
  | quote
deriving DecidableEq

namespace Keyword

/-- The keywords as they are written. -/
def name : Keyword → String
  | letStar => "let*"
  | define => "define"
  | conditional => "if"
  | lambda => "lambda"
  | quote => "quote"

/-- Every keyword. -/
def all : List Keyword := [letStar, define, conditional, lambda, quote]

/-- The keyword of a name, if it is one. -/
def ofName? (name : String) : Option Keyword := all.find? fun k => k.name = name

theorem mem_all (k : Keyword) : k ∈ all := by cases k <;> decide

@[simp]
theorem ofName?_name (k : Keyword) : ofName? k.name = some k := by cases k <;> decide

theorem ofName?_eq_some_iff {name : String} {k : Keyword} :
    ofName? name = some k ↔ name = k.name := by
  constructor
  · intro h
    simpa [eq_comm] using List.find?_some h
  · rintro rfl
    exact ofName?_name k

end Keyword

/-- The keyword that a datum is, if it is one. -/
def Datum.keyword? : Datum → Option Keyword
  | .symbol name _ => Keyword.ofName? name
  | _ => none

/-! ### Forms -/

/-- **A special form** with its operands taken apart. -/
inductive SpecialForm where
  /-- `(let* (name value ...) body)`: bindings, each of which sees the ones before
  it. -/
  | letStar (bindings : List (String × Datum)) (body : Datum)
  /-- `(define name value)`: a binding in the current frame. -/
  | define (name : String) (value : Datum)
  /-- `(if condition consequent alternate)`, where the alternate may be left out. -/
  | conditional (condition consequent : Datum) (alternate : Option Datum)
  /-- `(lambda (param ...) body ...)`: a closure over the current frame. -/
  | lambda (params : List String) (body : List Datum)
  /-- `(quote datum)`: the datum as it stands. -/
  | quote (datum : Datum)

namespace SpecialForm

/-- The name of a symbol; any other datum is an error. -/
def symbolName : Datum → Except EvalError String
  | .symbol name _ => .ok name
  | d => .error (.notSymbol d)

/-- The names of symbols, up to the first datum that is none. -/
def symbolNames : List Datum → Except EvalError (List String)
  | [] => .ok []
  | d :: ds => do
    let name ← symbolName d
    let names ← symbolNames ds
    return name :: names

/-- The bindings of names and values that take turns. -/
def bindingPairs : List Datum → Except EvalError (List (String × Datum))
  | name :: value :: ds => do
    let name ← symbolName name
    let bindings ← bindingPairs ds
    return (name, value) :: bindings
  | _ => .ok []

/-- The form that `let*` makes of its operands. -/
def ofLetStar (span : Span) : List Datum → Except EvalError SpecialForm
  | [.list pairs _, body] =>
    if pairs.length % 2 = 0 then do
      let bindings ← bindingPairs pairs
      return .letStar bindings body
    else .error (.malformed .letStarPairs span)
  | [_, _] => .error (.malformed .letStarBindings span)
  | _ => .error (.malformed .letStarOperands span)

/-- The form that `define` makes of its operands. -/
def ofDefine (span : Span) : List Datum → Except EvalError SpecialForm
  | [name, value] => do
    let name ← symbolName name
    return .define name value
  | _ => .error (.malformed .defineOperands span)

/-- The form that `if` makes of its operands. -/
def ofConditional (span : Span) : List Datum → Except EvalError SpecialForm
  | [condition, consequent] => .ok (.conditional condition consequent none)
  | [condition, consequent, alternate] => .ok (.conditional condition consequent (some alternate))
  | _ => .error (.malformed .ifOperands span)

/-- The form that `lambda` makes of its operands. A missing body is noticed before
the parameters are looked at. -/
def ofLambda (span : Span) : List Datum → Except EvalError SpecialForm
  | [] => .error (.malformed .lambdaOperands span)
  | [_] => .error (.malformed .lambdaBody span)
  | .list params _ :: body => do
    let params ← symbolNames params
    return .lambda params body
  | _ => .error (.malformed .lambdaParams span)

/-- The form that `quote` makes of its operands. -/
def ofQuote (span : Span) : List Datum → Except EvalError SpecialForm
  | [datum] => .ok (.quote datum)
  | _ => .error (.malformed .quoteOperands span)

/-- **The form that a keyword makes of its operands**, or what is wrong with them.
The span is that of the whole form. -/
def ofOperands (keyword : Keyword) (operands : List Datum) (span : Span) :
    Except EvalError SpecialForm :=
  match keyword with
  | .letStar => ofLetStar span operands
  | .define => ofDefine span operands
  | .conditional => ofConditional span operands
  | .lambda => ofLambda span operands
  | .quote => ofQuote span operands

end SpecialForm

end SmallLisp
