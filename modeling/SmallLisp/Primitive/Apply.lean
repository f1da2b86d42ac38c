import SmallLisp.Datum.Equality
import SmallLisp.Eval.Error

/-!
# What the primitives compute

A primitive takes evaluated arguments and touches no store. What it makes carries
the span of the call; only `car` hands out an element as it is, with its own span. A
wrong number of arguments is an error at the call, a wrong argument an error at that
argument, and of several wrong arguments the leftmost is the one reported.

* `SmallLisp.Primitive.foldNumbers`, `SmallLisp.Primitive.foldDivisors` –
  arithmetic, left to right;
* `SmallLisp.Primitive.compareFrom` – comparison of neighbours, all of which have to
  be numbers even if an earlier comparison has failed;
* `SmallLisp.Primitive.apply` – **any primitive**.
-/

namespace SmallLisp

namespace Primitive

/-! ### Arguments -/

/-- The number that the argument at the given position is. -/
def numberArg (p : Primitive) (position : Nat) : Datum → Except EvalError Float
  | .number x _ => .ok x
  | d => .error (.application (.notNumber p position d.kind) d.span)

/-- The elements of an argument that has to be a list. -/
def listArg (p : Primitive) : Datum → Except EvalError (List Datum)
  | .list es _ => .ok es
  | d => .error (.application (.notList p d.kind) d.span)

/-- The error of a call with the wrong number of arguments. -/
def exactly (p : Primitive) (expected : Nat) (args : List Datum) (span : Span) : EvalError :=
  .application (.exactArity p expected args.length) span

/-- The error of a call with too few arguments. -/
def atLeast (p : Primitive) (expected : Nat) (args : List Datum) (span : Span) : EvalError :=
  .application (.leastArity p expected args.length) span

/-! ### Arithmetic -/

/-- Folds numbers into `acc`, the first of them standing at the given position. -/
def foldNumbers (p : Primitive) (op : Float → Float → Float) :
    Nat → Float → List Datum → Except EvalError Float
  | _, acc, [] => .ok acc
  | position, acc, d :: ds => do
    let x ← numberArg p position d
    foldNumbers p op (position + 1) (op acc x) ds

/-- Divides `acc` by one number after the other, none of which may be zero; the
first of them stands at the given position. -/
def foldDivisors : Nat → Float → List Datum → Except EvalError Float
  | _, acc, [] => .ok acc
  | position, acc, d :: ds => do
    let x ← numberArg .div position d
    if x == 0 then .error (.application .divisionByZero d.span)
    else foldDivisors (position + 1) (acc / x) ds

/-- Difference of the first argument and the others, or negation of a single one. -/
def subtract (span : Span) : List Datum → Except EvalError Float
  | [] => .error (atLeast .sub 1 [] span)
  | [d] => do
    let x ← numberArg .sub 1 d
    return -x
  | d :: ds => do
    let x ← numberArg .sub 1 d
    foldNumbers .sub (· - ·) 2 x ds

/-- Quotient of the first argument and the others, or reciprocal of a single one. -/
def divide (span : Span) : List Datum → Except EvalError Float
  | [] => .error (atLeast .div 1 [] span)
  | [d] => foldDivisors 1 1 [d]
  | d :: ds => do
    let x ← numberArg .div 1 d
    foldDivisors 2 x ds

/-! ### Comparison -/

/-- Whether a relation holds between `x` and the first number, and between all
neighbours after it. -/
def compareFrom (p : Primitive) (rel : Float → Float → Bool) :
    Nat → Float → List Datum → Except EvalError Bool
  | _, _, [] => .ok true
  | position, x, d :: ds => do
    let y ← numberArg p position d
    let others ← compareFrom p rel (position + 1) y ds
    return rel x y && others

/-- Whether a relation holds between all neighbours of at least two numbers. -/
def compareAll (p : Primitive) (rel : Float → Float → Bool) (args : List Datum) (span : Span) :
    Except EvalError Bool :=
  match args with
  | d :: e :: ds => do
    let x ← numberArg p 1 d
    compareFrom p rel 2 x (e :: ds)
  | _ => .error (atLeast p 2 args span)

/-- Whether all neighbours are equal values. -/
def neighboursSame : List Datum → Bool
  | d :: e :: ds => d.sameValue e && neighboursSame (e :: ds)
  | _ => true

/-! ### Application -/

/-- Whether the only argument is of the given kind. -/
def hasKind (p : Primitive) (kind : Datum.Kind) (args : List Datum) (span : Span) :
    Except EvalError Datum :=
  match args with
  | [d] => .ok (.boolean (d.kind = kind) span)
  | _ => .error (exactly p 1 args span)

/-- **Applies a primitive** to evaluated arguments, in a call with the given
span. -/
def apply (p : Primitive) (args : List Datum) (span : Span) : Except EvalError Datum :=
  match p with
  | .add => (foldNumbers .add (· + ·) 1 0 args).map (Datum.number · span)
  | .sub => (subtract span args).map (Datum.number · span)
  | .mul => (foldNumbers .mul (· * ·) 1 1 args).map (Datum.number · span)
  | .div => (divide span args).map (Datum.number · span)
  | .equal =>
    if args.length < 2 then .error (atLeast .equal 2 args span)
    else .ok (.boolean (neighboursSame args) span)
  | .less => (compareAll .less (fun x y => x < y) args span).map (Datum.boolean · span)
  | .lessEq => (compareAll .lessEq (fun x y => x ≤ y) args span).map (Datum.boolean · span)
  | .greater => (compareAll .greater (fun x y => y < x) args span).map (Datum.boolean · span)
  | .greaterEq => (compareAll .greaterEq (fun x y => y ≤ x) args span).map (Datum.boolean · span)
  | .car =>
    match args with
    | [d] => do
      match ← listArg .car d with
      | e :: _ => return e
      | [] => .error (.application .carOfEmpty d.span)
    | _ => .error (exactly .car 1 args span)
  | .cdr =>
    match args with
    | [d] => do
      let es ← listArg .cdr d
      return .list es.tail span
    | _ => .error (exactly .cdr 1 args span)
  | .cons =>
    match args with
    | [d, e] => do
      let es ← listArg .cons e
      return .list (d :: es) span
    | _ => .error (exactly .cons 2 args span)
  | .list => .ok (.list args span)
  | .isNull =>
    match args with
    | [.list es _] => .ok (.boolean es.isEmpty span)
    | [_] => .ok (.boolean false span)
    | _ => .error (exactly .isNull 1 args span)
  | .isNumber => hasKind .isNumber .number args span
  | .isBoolean => hasKind .isBoolean .boolean args span
  | .isSymbol => hasKind .isSymbol .symbol args span
  | .isString => hasKind .isString .string args span
  | .isProcedure => hasKind .isProcedure .procedure args span

end Primitive

end SmallLisp
