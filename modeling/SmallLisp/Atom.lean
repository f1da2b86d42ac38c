import SmallLisp.Number.Shortest

/-!
# Atoms

An atom is a number, a text in double quotes, one of the two booleans `t` and `nil`,
or a symbol. Which of them a token is depends on the whole of its text: `1` is a
number and `1-2` a symbol.

* `SmallLisp.Atom.ofText` – **what an atom's text means**;
* `SmallLisp.Atom.render` – how an atom is printed;
* `SmallLisp.Atom.same` – when two atoms are equal, numbers being compared as
  doubles.
-/

namespace SmallLisp

/-- **An atom.** -/
inductive Atom where
  /-- A double. -/
  | number (value : Float)
  /-- A text, without its quotes. -/
  | text (content : String)
  /-- The booleans, `t` and `nil`. -/
  | boolean (value : Bool)
  /-- A name. -/
  | symbol (name : String)
deriving DecidableEq

namespace Atom

/-- The characters that a quoted text may hold. There are no escapes, and either
quote or the end of a line ends it. -/
def isQuotable (c : Char) : Bool := c != '"' && c != '\'' && c != '\r' && c != '\n'

/-- The content of a text in double quotes, if the whole of `cs` is one. -/
def quoted? : List Char → Option String
  | '"' :: cs =>
    match cs.getLast? with
    | some '"' =>
      let content := cs.dropLast
      if content.all isQuotable then some (String.ofList content) else none
    | _ => none
  | _ => none

/-- **The atom that a text spells**: a literal if the whole text is one, and
otherwise a symbol. -/
def ofText (text : String) : Atom :=
  match numberLiteral? text.toList with
  | some x => .number x
  | none =>
    match quoted? text.toList with
    | some content => .text content
    | none =>
      if text = "t" then .boolean true
      else if text = "nil" then .boolean false
      else .symbol text

/-- The printed form of an atom. Quotes are put around a text and nothing inside it
is escaped. -/
def render : Atom → String
  | .number x => renderNumber x
  | .text content => "\"" ++ content ++ "\""
  | .boolean b => if b then "t" else "nil"
  | .symbol name => name

/-- Whether two atoms are equal: of the same kind with the same content, where
numbers are compared as doubles, so that `0` equals `-0` and a value that is not a
number equals nothing. -/
def same : Atom → Atom → Bool
  | .number x, .number y => x == y
  | .text x, .text y => x == y
  | .boolean x, .boolean y => x == y
  | .symbol x, .symbol y => x == y
  | _, _ => false

end Atom

end SmallLisp
