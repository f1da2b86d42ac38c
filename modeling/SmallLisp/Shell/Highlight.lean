/-!
# Highlighting brackets

While a line is edited, its double quotes are shown in green, closing parentheses
that close nothing in red, and the pair of parentheses that the cursor stands behind
one of in blue, the opening one in bold. Everything else is shown as it is.
Parentheses are paired as usual, each closing one with the latest opening one that
is not paired yet; offsets count bytes.

* `SmallLisp.closings` – for every closing parenthesis, the one it closes;
* `SmallLisp.highlight` – **the line with its colours**.
-/

namespace SmallLisp

/-- The closing parentheses of a text with their offsets, each with the offset of
the opening one that it closes, if there is one. The text starts at `offset`, and
`pending` holds the offsets of the opening parentheses before it that are not closed
yet, the latest first. -/
def closingsFrom (pending : List Nat) (offset : Nat) : List Char → List (Option Nat × Nat)
  | [] => []
  | c :: cs =>
    let next := offset + c.utf8Size
    if c = '(' then closingsFrom (offset :: pending) next cs
    else if c = ')' then (pending.head?, offset) :: closingsFrom pending.tail next cs
    else closingsFrom pending next cs

/-- **The pairing of the parentheses of a line.** -/
def closings (line : List Char) : List (Option Nat × Nat) := closingsFrom [] 0 line

/-- The colours of a character. -/
inductive Style where
  | plain
  /-- A double quote. -/
  | quote
  /-- A closing parenthesis that closes nothing. -/
  | stray
  /-- The opening parenthesis of the pair at the cursor. -/
  | pairOpening
  /-- The closing parenthesis of the pair at the cursor. -/
  | pairClosing
deriving DecidableEq

/-- The control sequence that starts a style on the terminal. -/
def Style.start : Style → String
  | plain => ""
  | quote => "\x1b[32m"
  | stray => "\x1b[31m"
  | pairOpening => "\x1b[1;34m"
  | pairClosing => "\x1b[34m"

/-- The control sequence that ends a style on the terminal. -/
def Style.stop : Style → String
  | plain => ""
  | _ => "\x1b[0m"

/-- A character in a style. -/
def Style.paint (style : Style) (c : Char) : String :=
  style.start ++ String.singleton c ++ style.stop

/-- The pair of parentheses that the cursor stands behind one of. -/
def pairAtCursor? (pairs : List (Option Nat × Nat)) (cursor : Nat) : Option (Nat × Nat) :=
  pairs.findSome? fun p =>
    match p with
    | (some o, c) => if o + 1 = cursor ∨ c + 1 = cursor then some (o, c) else none
    | (none, _) => none

/-- The style of the character at an offset. -/
def styleAt (pairs : List (Option Nat × Nat)) (cursor offset : Nat) (c : Char) : Style :=
  if c = '"' then .quote
  else if (none, offset) ∈ pairs then .stray
  else
    match pairAtCursor? pairs cursor with
    | some (o, d) =>
      if offset = o then .pairOpening else if offset = d then .pairClosing else .plain
    | none => .plain

/-- The characters from an offset on, each in its style. -/
def paintFrom (pairs : List (Option Nat × Nat)) (cursor offset : Nat) : List Char → String
  | [] => ""
  | c :: cs =>
    (styleAt pairs cursor offset c).paint c ++ paintFrom pairs cursor (offset + c.utf8Size) cs

/-- **A line with its colours**, the cursor standing at the given byte offset. -/
def highlight (line : String) (cursor : Nat) : String :=
  paintFrom (closings line.toList) cursor 0 line.toList

end SmallLisp
