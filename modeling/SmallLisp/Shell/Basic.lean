import SmallLisp.Datum.Render
import SmallLisp.Interpreter
import SmallLisp.Report.Basic
import SmallLisp.Shell.History
import SmallLisp.Shell.Input

/-!
# The shell

The shell evaluates lines and shows what comes of them: each value on a line of its
own, and a report of the error if there is one. Given a single line on the command
line it evaluates that and is done; otherwise it greets, reads inputs until one of
them is `exit` or there are none left, and goes on after errors.

* `SmallLisp.evaluateLine` – the expressions of a line, up to the first that fails;
* `SmallLisp.Shell.accept` – what the shell does with one input;
* `SmallLisp.Shell.run` – **a whole run** of the shell over given input;
* `SmallLisp.runLine` – a run over a single line.
-/

namespace SmallLisp

/-! ### Output -/

/-- What a run writes to the standard output and to the standard error. -/
structure Output where
  /-- The standard output. -/
  out : String
  /-- The standard error. -/
  err : String
deriving DecidableEq

namespace Output

/-- Nothing written. -/
def empty : Output := ⟨"", ""⟩

/-- One output and then another. -/
def append (a b : Output) : Output := ⟨a.out ++ b.out, a.err ++ b.err⟩

instance : Append Output := ⟨append⟩

end Output

/-! ### A line -/

/-- What comes of a line: the values before the first failure, and the failure if
there is one. -/
structure LineResult where
  /-- The values of the expressions that did not fail. -/
  values : List Datum
  /-- What ended the evaluation early. -/
  failure : Option Error

section

variable (policy : FramePolicy) (depth : Nat) (i : Interpreter)

/-- Evaluates expressions in order until one fails. -/
def evaluateEach : List Datum → Store → Option (LineResult × Store)
  | [], s => some (⟨[], none⟩, s)
  | d :: ds, s =>
    match i.evaluate policy depth d s with
    | none => none
    | some (.error e, s) => some (⟨[], some e⟩, s)
    | some (.ok v, s) =>
      match evaluateEach ds s with
      | none => none
      | some (r, s) => some ({ r with values := v :: r.values }, s)

/-- **Evaluates the expressions of a line** in order until one fails. A line that
cannot be read is not evaluated at all. -/
def evaluateLine (line : String) (s : Store) : Option (LineResult × Store) :=
  match readProgram line with
  | .error e => some (⟨[], some (.read e)⟩, s)
  | .ok ds => evaluateEach policy depth i ds s

end

/-- What is written about a line: the values on lines of their own, and the
report. -/
def LineResult.output (r : LineResult) (line : String) : Output where
  out := r.values.foldl (fun acc v => acc ++ v.render ++ "\n") ""
  err :=
    match r.failure with
    | some e => (e.report line).render line
    | none => ""

/-- **A run over a single line**: what is written, and whether all went well. -/
def runLine (policy : FramePolicy) (depth : Nat) (line : String) : Option (Output × Bool) :=
  let (i, s) := Interpreter.new .empty
  (evaluateLine policy depth i line s).map fun (r, _) => (r.output line, r.failure.isNone)

/-! ### The shell -/

/-- **The state of a shell.** -/
structure Shell where
  /-- The interpreter that evaluates the inputs. -/
  interpreter : Interpreter
  /-- The store of that interpreter. -/
  store : Store
  /-- The inputs so far. -/
  history : History
  /-- Whether the shell was told to exit. -/
  finished : Bool

namespace Shell

/-- The words that the shell greets with. -/
def banner : String := "tinylisp REPL v0.1.0\nType 'exit' or press Ctrl-D to quit.\n"

/-- Written when there is no file to load a history from. -/
def noHistory : String := "No previous history.\n"

/-- Written when the input ends. -/
def farewell : String := "\nExiting.\n"

/-- A shell with a new interpreter. -/
def new (history : History) : Shell :=
  let (i, s) := Interpreter.new .empty
  ⟨i, s, history, false⟩

/-- Whether an input, without the blanks around it, is the word `exit` in any
case. -/
def isExit (trimmed : List Char) : Bool := trimmed.map Char.toLower = "exit".toList

variable (policy : FramePolicy) (depth : Nat)

/-- **What the shell does with an input.** The input goes into the history as it is;
evaluated is what it is without the blanks around it, unless that is nothing or
`exit`. -/
def accept (sh : Shell) (input : List Char) : Option (Output × Shell) :=
  let sh := { sh with history := sh.history.add (String.ofList input) }
  let trimmed := trimBlanks input
  if trimmed = [] then some (.empty, sh)
  else if isExit trimmed then some (.empty, { sh with finished := true })
  else
    let line := String.ofList trimmed
    (evaluateLine policy depth sh.interpreter line sh.store).map fun (r, s) =>
      (r.output line, { sh with store := s })

/-- Takes inputs one after the other, until the shell is told to exit. -/
def acceptAll (sh : Shell) : List (List Char) → Option (Output × Shell)
  | [] => some (.empty, sh)
  | input :: inputs =>
    if sh.finished then some (.empty, sh)
    else do
      let (o, sh) ← accept policy depth sh input
      let (os, sh) ← acceptAll sh inputs
      return (o ++ os, sh)

/-- Written at the end: a shell that was not told to exit says goodbye. -/
def close (sh : Shell) : Output := if sh.finished then .empty else ⟨farewell, ""⟩

/-- **A run of the shell** with the given history over the given input: what is
written, and the history afterwards. -/
def run (history : History) (input : String) : Option (Output × History) := do
  let (o, sh) ← acceptAll policy depth (new history) (inputBlocks input)
  return (o ++ sh.close, sh.history)

end Shell

/-! ### Runs with a history file -/

/-- Where the history of a run comes from. -/
inductive HistorySource where
  /-- The run neither loads nor saves a history. -/
  | off
  /-- There is no file yet. -/
  | missing
  /-- The text of the file. -/
  | file (content : String)

namespace HistorySource

/-- The history that a run starts with. -/
def history : HistorySource → History
  | off => .empty
  | missing => .empty
  | file content => .load content

/-- What is written about the history before the first input. -/
def greeting : HistorySource → String
  | off => Shell.banner
  | missing => Shell.banner ++ Shell.noHistory
  | file _ => Shell.banner

/-- The file after a run that ends with the given history, if there is one. -/
def fileAfter (source : HistorySource) (h : History) : Option String :=
  match source with
  | off => none
  | missing => h.save?
  | file content => some (h.save?.getD content)

end HistorySource

/-- **A run of the shell with its greeting**: what is written, and the history file
afterwards. -/
def runShell (policy : FramePolicy) (depth : Nat) (source : HistorySource) (input : String) :
    Option (Output × Option String) := do
  let (o, h) ← Shell.run policy depth source.history input
  return (⟨source.greeting, ""⟩ ++ o, source.fileAfter h)

end SmallLisp
