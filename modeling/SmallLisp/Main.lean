import SmallLisp.Shell.Basic
import SmallLisp.Shell.Options

/-!
# The program

Reads and writes what `SmallLisp.Shell` decides: lines from the standard input,
values to the standard output, reports to the standard error, and the history from
and to its file.
-/

namespace SmallLisp

/-- How deep evaluations may go. -/
def depthLimit : Nat := 20000

/-- Writes an output. -/
def Output.write (o : Output) : IO Unit := do
  let stdout ← IO.getStdout
  stdout.putStr o.out
  stdout.flush
  let stderr ← IO.getStderr
  stderr.putStr o.err
  stderr.flush

/-- Says that an evaluation was given up. -/
def complainOfDepth : IO Unit := IO.eprintln "Error: evaluation too deep"

/-- Hands the lines of the standard input to a shell until it is told to exit or
there are none left. -/
partial def Shell.interact (sh : Shell) (pending : List Char) : IO Shell := do
  if sh.finished then return sh
  let stdin ← IO.getStdin
  let line ← stdin.getLine
  if line.isEmpty then
    sh.close.write
    return sh
  match addLine pending line.toList with
  | .waiting text => sh.interact text
  | .complete input =>
    match sh.accept .clearFinished depthLimit input with
    | some (o, sh) =>
      o.write
      sh.interact []
    | none =>
      complainOfDepth
      sh.interact []

/-- Where the history of a run comes from, by the name of its file. -/
def HistorySource.ofFile (name : Option String) : IO HistorySource := do
  match name with
  | none => return .off
  | some name =>
    try return .file (← IO.FS.readFile name)
    catch _ => return .missing

/-- Evaluates a single line. -/
def evaluateOnce (line : String) : IO UInt32 := do
  match runLine .clearFinished depthLimit line with
  | some (o, good) =>
    o.write
    return if good then 0 else 1
  | none =>
    complainOfDepth
    return 1

/-- Runs the shell on the standard input. -/
def runInteractively (historyFile : Option String) : IO UInt32 := do
  let source ← HistorySource.ofFile historyFile
  Output.write ⟨source.greeting, ""⟩
  let sh ← (Shell.new source.history).interact []
  if let some name := historyFile then
    if let some text := sh.history.save? then
      IO.FS.writeFile name text
  return 0

end SmallLisp

open SmallLisp in
/-- **The program**, by what its command line asks for. -/
def main (args : List String) : IO UInt32 := do
  match Options.ofArgs args with
  | .error arg =>
    IO.eprintln ("error: unexpected argument '" ++ arg ++ "' found")
    return 2
  | .ok options =>
    match options.line with
    | some line => evaluateOnce line
    | none => runInteractively options.history
