import SmallLisp.Shell.Backspace
import SmallLisp.Shell.Balance

/-!
# From lines to inputs

Input comes in lines, and an input may take several of them: as long as a list is
open, the next line is added to it. The line ends inside an input are kept as they
were, and the one at its end is removed. Backspaces are carried out each time a line
has been added, on all that has been read of the input, so those of a later line can
take back an earlier one.

* `SmallLisp.splitLineEnd` – a text and the line end at its end;
* `SmallLisp.addLine` – one more line of input;
* `SmallLisp.inputBlocks` – **the inputs of a text**.
-/

namespace SmallLisp

/-- The lines of a text with their line feeds; `line` holds the characters of the
current line, the latest first. -/
def rawLines (line : List Char) : List Char → List (List Char)
  | [] => if line = [] then [] else [line.reverse]
  | '\n' :: cs => ('\n' :: line).reverse :: rawLines [] cs
  | c :: cs => rawLines (c :: line) cs

/-- Cutting a text into lines loses nothing. -/
theorem flatten_rawLines (line cs : List Char) :
    (rawLines line cs).flatten = line.reverse ++ cs := by
  fun_induction rawLines line cs <;> simp_all

/-- A text without the line end at its end, and that line end: a line feed, and a
carriage return in front of it. -/
def splitLineEnd (cs : List Char) : List Char × List Char :=
  if cs.getLast? = some '\n' then
    let body := cs.dropLast
    if body.getLast? = some '\r' then (body.dropLast, ['\r', '\n']) else (body, ['\n'])
  else (cs, [])

/-- Splitting off the line end loses nothing. -/
theorem splitLineEnd_append (cs : List Char) : (splitLineEnd cs).1 ++ (splitLineEnd cs).2 = cs := by
  unfold splitLineEnd
  split
  · rename_i h
    obtain ⟨body, rfl⟩ := List.getLast?_eq_some_iff.1 h
    simp only [List.dropLast_concat]
    split
    · rename_i h
      obtain ⟨body, rfl⟩ := List.getLast?_eq_some_iff.1 h
      simp
    · rfl
  · simp

/-- What a further line makes of an input that was not complete. -/
inductive Pending where
  /-- More lines have to follow; these characters have been read so far. -/
  | waiting (text : List Char)
  /-- The input is complete. -/
  | complete (input : List Char)

/-- **Adds a line** to the lines of an input read so far. -/
def addLine (pending line : List Char) : Pending :=
  let (body, ending) := splitLineEnd (pending ++ line)
  let input := applyBackspaces body
  if waitsForMore input then .waiting (input ++ ending) else .complete input

/-- **The inputs that lines make**, after the lines of a first one read so far.
Lines that do not complete an input at the end are dropped. -/
def blocksFrom (pending : List Char) : List (List Char) → List (List Char)
  | [] => []
  | line :: lines =>
    match addLine pending line with
    | .waiting text => blocksFrom text lines
    | .complete input => input :: blocksFrom [] lines

/-- **The inputs of a text.** -/
def inputBlocks (text : String) : List (List Char) := blocksFrom [] (rawLines [] text.toList)

end SmallLisp
