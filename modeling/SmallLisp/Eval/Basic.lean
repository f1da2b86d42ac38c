import SmallLisp.Eval.SpecialForm
import SmallLisp.Primitive.Apply
import SmallLisp.Store.Action

/-!
# Evaluation

Atoms other than symbols and procedures evaluate to themselves. A symbol evaluates
to its value, which from then on stands for the place of the symbol. A list that
starts with a keyword is a special form. In every other list all elements are
evaluated from left to right; if the first of the values is a procedure it is
applied to the others, and otherwise the values are a list again.

A program need not end, so evaluation takes a bound on the depth of its recursion.
One level of it is `SmallLisp.evalStep`, which is given the evaluation of smaller
depth as a function; everything it needs on the way is a definition over such a
function `ev`, and no recursion but that on the depth is needed to tie them
together.

Each call and each `let*` has a frame of its own. When it is finished, its bindings
are removed, unless the result is or holds a closure, for which they may still be
needed. The policy is a parameter: `SmallLisp.FramePolicy.keepAll` removes nothing.

* `SmallLisp.eval` – **the value of an expression in a frame**;
* `SmallLisp.apply` – a procedure applied to values.
-/

namespace SmallLisp

/-! ### Finished frames -/

/-- What becomes of the bindings of a finished call or `let*`. -/
inductive FramePolicy where
  /-- They are removed, unless the result is or holds a closure. -/
  | clearFinished
  /-- They stay. -/
  | keepAll
deriving DecidableEq

/-- Whether a result carries a closure out of the frame it was computed in. -/
def escapes : Except EvalError Datum → Bool
  | .ok d => d.holdsClosure
  | .error _ => false

/-- The store after a frame is finished with the given result. -/
def FramePolicy.finish (policy : FramePolicy) (f : FrameId) (result : Except EvalError Datum)
    (s : Store) : Store :=
  match policy with
  | .keepAll => s
  | .clearFinished => if escapes result then s else s.clear f

/-- Runs an action in a new frame with the given bindings around which `outer`
stands, and finishes the frame whatever the result is. -/
def withFrame (policy : FramePolicy) (outer : FrameId) (entries : List (String × Datum))
    (body : FrameId → Action EvalError Datum) : Action EvalError Datum := fun s =>
  let (f, s) := s.addFrame (some outer) .empty
  match body f (s.setAll f entries) with
  | none => none
  | some (result, s) => some (result, policy.finish f result s)

/-! ### One level of evaluation -/

/-- How an expression is evaluated in a frame. -/
abbrev Evaluator := Datum → FrameId → Action EvalError Datum

/-- The values of expressions, from left to right. -/
def evalElements (ev : Evaluator) (f : FrameId) : List Datum → Action EvalError (List Datum)
  | [] => pure []
  | d :: ds => do
    let v ← ev d f
    let vs ← evalElements ev f ds
    return v :: vs

/-- The value of the last of several expressions; `result` if there is none. -/
def evalBody (ev : Evaluator) (f : FrameId) : Datum → List Datum → Action EvalError Datum
  | result, [] => pure result
  | _, d :: ds => do
    let v ← ev d f
    evalBody ev f v ds

/-- Binds names in a frame to the values of expressions, each of which sees the
bindings before it. -/
def evalBindings (ev : Evaluator) (f : FrameId) : List (String × Datum) → Action EvalError Unit
  | [] => pure ()
  | (name, d) :: bs => do
    let v ← ev d f
    Action.change (·.set f name v)
    evalBindings ev f bs

/-- Applies a closure: its body is evaluated in a new frame that binds the
parameters, inside the frame that the closure was made in. -/
def applyClosure (policy : FramePolicy) (ev : Evaluator) (c : Closure) (args : List Datum)
    (span : Span) : Action EvalError Datum :=
  if args.length = c.params.length then
    withFrame policy c.frame (c.params.zip args) fun f =>
      evalBody ev f (.boolean false span) c.body
  else Action.fail (.application (.closureArity c.params.length args.length) span)

/-- Applies a procedure to values, in a call with the given span. -/
def applyWith (policy : FramePolicy) (ev : Evaluator) (p : Procedure) (args : List Datum)
    (span : Span) : Action EvalError Datum :=
  match p with
  | .primitive p => Action.ofExcept (p.apply args span)
  | .closure c => applyClosure policy ev c args span

/-- Evaluates a special form that covers the given span. -/
def evalForm (policy : FramePolicy) (ev : Evaluator) (f : FrameId) (span : Span) :
    SpecialForm → Action EvalError Datum
  | .letStar bindings body =>
    withFrame policy f [] fun g => do
      evalBindings ev g bindings
      ev body g
  | .define name value => do
    let v ← ev value f
    Action.change (·.set f name v)
    return v
  | .conditional condition consequent alternate => do
    let v ← ev condition f
    if v.isTruthy then ev consequent f
    else
      match alternate with
      | some d => ev d f
      | none => return .boolean false span
  | .lambda params body => do
    let id ← Action.step Store.addClosure
    return .closure id params body f span
  | .quote datum => return datum

/-- Evaluates the elements of a list that is no special form, and applies the first
of the values to the others if it is a procedure. -/
def evalApplication (policy : FramePolicy) (ev : Evaluator) (f : FrameId) (elements : List Datum)
    (span : Span) : Action EvalError Datum := do
  let values ← evalElements ev f elements
  match values.head?.bind Datum.procedure? with
  | some p => applyWith policy ev p values.tail span
  | none => return .list values span

/-- The value that a symbol has in a frame. It stands for the place of the
symbol. -/
def evalSymbol (f : FrameId) (name : String) (span : Span) : Action EvalError Datum :=
  Action.inspect fun s =>
    match s.lookup? name f with
    | some v => .ok (v.withSpan span)
    | none => .error (.unbound name span)

/-- **One level of evaluation**, with `ev` for the levels below. -/
def evalStep (policy : FramePolicy) (ev : Evaluator) : Evaluator
  | .symbol name span, f => evalSymbol f name span
  | .list [] span, _ => return .list [] span
  | .list (d :: ds) span, f =>
    match d.keyword? with
    | some keyword => do
      let form ← Action.ofExcept (SpecialForm.ofOperands keyword ds span)
      evalForm policy ev f span form
    | none => evalApplication policy ev f (d :: ds) span
  | d, _ => return d

/-! ### Evaluation -/

/-- **The value of an expression in a frame**, found by a recursion of at most the
given depth. -/
def eval (policy : FramePolicy) : Nat → Evaluator
  | 0 => fun _ _ => Action.outOfDepth
  | depth + 1 => evalStep policy (eval policy depth)

/-- **A procedure applied to values**, in a call with the given span. -/
def apply (policy : FramePolicy) (depth : Nat) (p : Procedure) (args : List Datum) (span : Span) :
    Action EvalError Datum :=
  applyWith policy (eval policy depth) p args span

@[simp]
theorem eval_zero (policy : FramePolicy) (d : Datum) (f : FrameId) (s : Store) :
    eval policy 0 d f s = none := rfl

theorem eval_succ (policy : FramePolicy) (depth : Nat) :
    eval policy (depth + 1) = evalStep policy (eval policy depth) := rfl

end SmallLisp
