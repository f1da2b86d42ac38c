import SmallLisp.Eval.Basic

/-!
# Interpreters

An interpreter is a root frame in a store. It reads texts and evaluates their
expressions in its root, where definitions stay from one text to the next. A text
that cannot be read is not evaluated at all, not even up to the place where it goes
wrong.

* `SmallLisp.Interpreter.run` – the first expression of a text;
* `SmallLisp.Interpreter.runAll` – **every expression of a text**, up to the first
  that fails.
-/

namespace SmallLisp

/-- **An interpreter**: the frame its expressions are evaluated in. -/
structure Interpreter where
  /-- The frame that definitions go to. -/
  root : FrameId
deriving DecidableEq

namespace Interpreter

/-- A new interpreter whose root binds the primitives. -/
def new (s : Store) : Interpreter × Store :=
  let (f, s) := s.addRoot
  (⟨f⟩, s)

/-- Gives an interpreter up, which removes every binding of its root. -/
def drop (i : Interpreter) (s : Store) : Store := s.clear i.root

variable (policy : FramePolicy) (depth : Nat) (i : Interpreter)

/-- Evaluates an expression in the root. -/
def evaluate (d : Datum) : Action Error Datum := (eval policy depth d i.root).mapError Error.eval

/-- Evaluates expressions one after the other, up to the first that fails. -/
def evaluateAll : List Datum → Action Error (List Datum)
  | [] => pure []
  | d :: ds => do
    let v ← evaluate policy depth i d
    let vs ← evaluateAll ds
    return v :: vs

/-- **Evaluates the first expression of a text.** -/
def run (text : String) : Action Error Datum := do
  let d ← Action.ofExcept ((readFirst text).mapError Error.read)
  evaluate policy depth i d

/-- **Evaluates every expression of a text**, in order, up to the first that
fails. -/
def runAll (text : String) : Action Error (List Datum) := do
  let ds ← Action.ofExcept ((readProgram text).mapError Error.read)
  evaluateAll policy depth i ds

end Interpreter

end SmallLisp
