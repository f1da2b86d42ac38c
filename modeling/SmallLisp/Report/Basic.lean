import SmallLisp.Eval.Error
import SmallLisp.Report.Lines

/-!
# Reports

A report says what is wrong, where, and shows the lines of the source it is about,
with the part in question underlined and labelled. An error knows its span as byte
offsets; a report takes the numbers of that span as positions of characters.

* `SmallLisp.Error.report` – **what is reported of an error**;
* `SmallLisp.Report.render` – **the text of a report**, line by line.
-/

namespace SmallLisp

/-- **A report.** -/
structure Report where
  /-- What is wrong. -/
  headline : String
  /-- The position given in the heading. -/
  position : Nat
  /-- The part of the source that is underlined. -/
  span : Span
  /-- The words next to the underlined part. -/
  label : String

/-! ### What is reported -/

/-- What is reported of an error of reading. The position of a list that is not
closed is the end of the text. -/
def ReadError.report (text : String) : ReadError → Report
  | .empty s => ⟨"SyntaxError", s.start, s, "Nothing to evaluate"⟩
  | .unclosed s =>
    ⟨"UnexpectedEndOfInput", text.utf8ByteSize, s, "This '(' is never closed"⟩
  | .stray s => ⟨"MismatchedParenthesis", s.start, s, "This ')' has no matching '('"⟩

/-- What is reported of an error of evaluation. -/
def EvalError.report : EvalError → Report
  | .unbound name s =>
    ⟨"NameError: `" ++ name ++ "` is not bound", s.start, s,
      "No enclosing let*, lambda or define binds this name"⟩
  | .application fault s => ⟨"ApplicationError", s.start, s, fault.message⟩
  | .notSymbol found =>
    ⟨"ApplicationError: cannot bind to " ++ found.render, found.span.start, found.span,
      "Names in let*, define and lambda must be symbols, not a " ++ found.kind.name⟩
  | .malformed fault s => ⟨"ApplicationError: malformed special form", s.start, s, fault.message⟩

/-- **What is reported of an error** that comes from running a text. -/
def Error.report (text : String) : Error → Report
  | .read e => e.report text
  | .eval e => e.report

namespace Report

/-! ### Layout -/

/-- The last position of the underlined part; an empty part has its start for it. -/
def last (r : Report) : Nat := max (r.span.stop - 1) r.span.start

/-- Whether the underlined part lies in a text of `n` characters, or just after
it. -/
def isInside (r : Report) (n : Nat) : Bool :=
  r.span.start ≤ n && (r.span.stop ≤ r.span.start || r.span.stop - 1 ≤ n)

/-- The line and column of a position, both counted from one, or question marks for
a position that is not in the text. -/
def place (lines : List SourceLine) (n position : Nat) : String :=
  if position ≤ n then
    let l := SourceLine.containing lines position
    toString l.number ++ ":" ++ toString (position - l.start + 1)
  else "?:?"

/-- The text in a column of the given width, to the right. -/
def padLeft (width : Nat) (text : String) : String :=
  String.ofList (List.replicate (width - text.length) ' ') ++ text

/-- A line of the source with its number, after the given mark. -/
def sourceRow (width : Nat) (l : SourceLine) (mark : String) : String :=
  " " ++ padLeft width (toString l.number) ++ " │ " ++ mark ++ l.render

/-- The blank margin below line numbers of the given width. -/
def margin (width : Nat) : String := String.ofList (List.replicate (width + 2) ' ')

/-- The rows for an underlined part within one line: the line, the underlining, and
an arrow from its middle to the label. A part that goes beyond the line's end is not
drawn. -/
def singleRows (r : Report) (width : Nat) (l : SourceLine) : List String :=
  if l.stop < r.span.stop then [margin width ++ "│ "]
  else
    let middle := (r.span.start + r.span.stop) / 2 - l.start
    let n := r.span.stop - l.start + 2
    let isUnderlined (i : Nat) : Bool := r.span.start ≤ l.start + i && l.start + i < r.span.stop
    let under (i : Nat) : Char × Char :=
      if i = middle then (if isUnderlined i then ('┬', '─') else ('│', ' '))
      else if isUnderlined i then ('─', '─')
      else (' ', ' ')
    let arrow (i : Nat) : Char × Char :=
      if i = middle then ('╰', '─') else if middle < i then ('─', '─') else (' ', ' ')
    [sourceRow width l "",
      margin width ++ "│ " ++ l.row n under,
      margin width ++ "│ " ++ l.row n arrow ++ " " ++ r.label]

/-- The rows for one of several lines. The first line and the one that the part ends
in are shown, the latter with the label below it; of the lines between, one mark
stands for all. -/
def multiRows (r : Report) (width : Nat) (isFirst elided : Bool) (l : SourceLine) : List String :=
  if isFirst then [sourceRow width l "╭─▶ "]
  else if l.start ≤ r.last && r.last < l.stop then
    [sourceRow width l "├─▶ ",
      margin width ++ "│ │   " ++ l.row (l.chars.length + 2) (fun _ => (' ', ' ')),
      margin width ++ "│ ╰───" ++ l.row (l.chars.length + 2) (fun _ => ('─', '─')) ++ " " ++
        r.label]
  else if elided then []
  else [margin width ++ "┆ ┆   "]

/-- The rows for the lines after the first; `elided` tells whether a mark already
stands for the lines that are not shown. -/
def laterRows (r : Report) (width : Nat) : Bool → List SourceLine → List String
  | _, [] => []
  | elided, l :: ls =>
    let isShown := l.start ≤ r.last && r.last < l.stop
    multiRows r width false elided l ++ laterRows r width (elided || !isShown) ls

/-- The rows that show the source. -/
def sourceRows (r : Report) (width : Nat) (lines : List SourceLine) : List String :=
  let first := SourceLine.containing lines r.span.start
  let final := SourceLine.containing lines r.last
  if first.number = final.number then singleRows r width first
  else
    multiRows r width true false first ++
      laterRows r width false
        (lines.filter fun l => first.number < l.number && l.number ≤ final.number)

/-- The rows of a report on a text. If the underlined part is not in the text, there
is only a headline. -/
def rows (r : Report) (text : String) : List String :=
  let cs := text.toList
  let lines := SourceLine.ofChars cs
  let headline := "Error: " ++ r.headline
  if r.isInside cs.length then
    let width := (toString (SourceLine.containing lines r.last).number).length
    [headline,
      margin width ++ "╭─[ REPL:" ++ place lines cs.length r.position ++ " ]",
      margin width ++ "│"] ++
      sourceRows r width lines ++
      [String.ofList (List.replicate (width + 2) '─') ++ "╯"]
  else [headline]

/-- **The text of a report**, each row ended by a line feed. -/
def render (r : Report) (text : String) : String :=
  (r.rows text).foldl (fun acc row => acc ++ row ++ "\n") ""

end Report

end SmallLisp
