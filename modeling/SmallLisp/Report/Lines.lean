import SmallLisp.Text.Blank

/-!
# The lines of a source

A report shows lines of the source with their numbers. A line ends after a line
feed, a carriage return, the two of them together, or one of the further line ends
of Unicode, and the end belongs to the line. An empty text is one empty line, and a
line end at the very end does not start another line. Positions count characters.
-/

namespace SmallLisp

/-- The characters that end a line. -/
def isLineEnd (c : Char) : Bool :=
  [0x000A, 0x000B, 0x000C, 0x000D, 0x0085, 0x2028, 0x2029].contains c.toNat

/-- Cuts a text after each line end; `line` holds the characters of the current
line, the latest first. -/
def cutLines (line : List Char) : List Char → List (List Char)
  | [] => if line = [] then [] else [line.reverse]
  | '\r' :: '\n' :: cs => ('\n' :: '\r' :: line).reverse :: cutLines [] cs
  | c :: cs =>
    if isLineEnd c then (c :: line).reverse :: cutLines [] cs else cutLines (c :: line) cs

/-- Cutting a text into lines loses nothing. -/
theorem flatten_cutLines (line cs : List Char) :
    (cutLines line cs).flatten = line.reverse ++ cs := by
  fun_induction cutLines line cs <;> simp_all

/-- **A line of a source.** -/
structure SourceLine where
  /-- The number of the line, counted from one. -/
  number : Nat
  /-- The position of its first character. -/
  start : Nat
  /-- Its characters, with the line end. -/
  chars : List Char

namespace SourceLine

/-- The position after the line's last character. -/
def stop (l : SourceLine) : Nat := l.start + l.chars.length

/-- Numbers lines and gives them their positions. -/
def locate (number start : Nat) : List (List Char) → List SourceLine
  | [] => []
  | cs :: rest => ⟨number, start, cs⟩ :: locate (number + 1) (start + cs.length) rest

/-- **The lines of a text.** -/
def ofChars (cs : List Char) : List SourceLine :=
  match cutLines [] cs with
  | [] => [⟨1, 0, []⟩]
  | lines => locate 1 0 lines

/-- The last line that starts at or before a position. -/
def containing (lines : List SourceLine) (position : Nat) : SourceLine :=
  ((lines.filter fun l => l.start ≤ position).getLast?).getD ⟨1, 0, []⟩

/-- The characters that are shown: all but the blank ones at the end. -/
def shown (l : SourceLine) : List Char := trimBlanksRight l.chars

/-- How many columns the character at an index of the line takes on the screen. A
tab goes to the next multiple of four; what lies beyond the line takes one
column. -/
def width (l : SourceLine) (index : Nat) : Nat :=
  if l.shown[index]? = some '\t' then 4 - index % 4 else 1

/-- The line as it is shown: each blank as spaces of its width. -/
def render (l : SourceLine) : String :=
  String.ofList (l.shown.mapIdx fun i c =>
    if isBlank c then List.replicate (l.width i) ' ' else [c]).flatten

/-- A row under the line: for each index below `n` a mark, and further copies of a
filling character up to the width of the line's character there. -/
def row (l : SourceLine) (n : Nat) (mark : Nat → Char × Char) : String :=
  String.ofList ((List.range n).map fun i =>
    (mark i).1 :: List.replicate (l.width i - 1) (mark i).2).flatten

end SourceLine

end SmallLisp
