import SmallLisp.Datum.Render
import SmallLisp.Reader

/-!
# What can go wrong in an evaluation

Errors are causes, each with the data its message needs; the wording is in one
function per type. An evaluation fails because a name is unbound, because a
procedure does not take its arguments, because something other than a symbol stands
where a name is bound, or because a special form has the wrong shape.

`SmallLisp.Error` puts these together with the errors of reading: it is what running
a text can end with.
-/

namespace SmallLisp

/-! ### Applications -/

/-- Why a procedure does not take its arguments. -/
inductive ApplyFault where
  /-- A primitive of fixed arity is given another number of arguments. -/
  | exactArity (p : Primitive) (expected got : Nat)
  /-- A primitive is given too few arguments. -/
  | leastArity (p : Primitive) (expected got : Nat)
  /-- The argument at the given position, counted from one, is not a number. -/
  | notNumber (p : Primitive) (position : Nat) (found : Datum.Kind)
  /-- An argument that has to be a list is none. -/
  | notList (p : Primitive) (found : Datum.Kind)
  /-- A divisor is zero. -/
  | divisionByZero
  /-- The empty list has no first element. -/
  | carOfEmpty
  /-- A closure is given another number of arguments than it has parameters. -/
  | closureArity (expected got : Nat)
deriving DecidableEq

/-- The text of a fault. -/
def ApplyFault.message : ApplyFault → String
  | exactArity p expected got =>
    "Primitive '" ++ p.name ++ "' expects exactly " ++ toString expected ++ " arguments, got " ++
      toString got
  | leastArity p expected got =>
    "Primitive '" ++ p.name ++ "' expects at least " ++ toString expected ++ " arguments, got " ++
      toString got
  | notNumber p position found =>
    "Primitive '" ++ p.name ++ "' expects a number for argument " ++ toString position ++
      ", got " ++ found.name
  | notList p found => "Primitive '" ++ p.name ++ "' expects a list, got " ++ found.name
  | divisionByZero => "Division by zero"
  | carOfEmpty => "car: Cannot take car of empty list"
  | closureArity expected got =>
    "lambda expects exactly " ++ toString expected ++ " arguments, got " ++ toString got

/-! ### Special forms -/

/-- What is wrong with the shape of a special form. -/
inductive FormFault where
  | letStarOperands
  | letStarBindings
  | letStarPairs
  | defineOperands
  | ifOperands
  | lambdaOperands
  | lambdaBody
  | lambdaParams
  | quoteOperands
deriving DecidableEq

/-- The text of a fault. -/
def FormFault.message : FormFault → String
  | letStarOperands => "let* expects a binding list and a body"
  | letStarBindings => "let* bindings must be a list of name/expression pairs"
  | letStarPairs => "let* bindings must come in name/expression pairs"
  | defineOperands => "define expects a name and an expression"
  | ifOperands => "if expects condition, consequent, and optional alternate"
  | lambdaOperands => "lambda expects a parameter list and a body"
  | lambdaBody => "lambda expects at least one body expression"
  | lambdaParams => "lambda parameters must be a list of symbols"
  | quoteOperands => "quote expects exactly one argument"

/-! ### Evaluation errors -/

/-- **Why an evaluation fails.** -/
inductive EvalError where
  /-- No frame on the way out binds the name; the span is where it is looked up. -/
  | unbound (name : String) (span : Span)
  /-- A procedure does not take its arguments. -/
  | application (fault : ApplyFault) (span : Span)
  /-- Something else stands where a symbol is needed. -/
  | notSymbol (found : Datum)
  /-- A special form has the wrong shape; the span is that of the whole form. -/
  | malformed (fault : FormFault) (span : Span)

namespace EvalError

/-- Where the error is. -/
def span : EvalError → Span
  | unbound _ s => s
  | application _ s => s
  | notSymbol found => found.span
  | malformed _ s => s

/-- The text of the error. -/
def message : EvalError → String
  | unbound name _ => "Unbound variable: '" ++ name ++ "'"
  | application fault _ => "Evaluation Error: " ++ fault.message
  | notSymbol found => "Evaluation Error: Expected a symbol, but got: " ++ found.render
  | malformed fault _ => "Evaluation Error: Invalid special form - " ++ fault.message

end EvalError

/-! ### All errors -/

/-- **What running a text can end with** other than values. -/
inductive Error where
  /-- The text cannot be read. -/
  | read (e : ReadError)
  /-- An expression fails. -/
  | eval (e : EvalError)

namespace Error

/-- Where the error is. -/
def span : Error → Span
  | read e => e.span
  | eval e => e.span

/-- The text of the error. -/
def message : Error → String
  | read e => e.message
  | eval e => e.message

end Error

end SmallLisp
