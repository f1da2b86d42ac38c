import SmallLisp.Eval.SpecialForm
import SmallLisp.Store.Basic

/-!
# Completing names

When the cursor stands right behind an atom, that atom is completed to the names
that can be seen from a frame and to the keywords. A candidate is what is missing of
a name.
-/

namespace SmallLisp

/-- What is left of a name after its beginning, if it begins so. -/
def restOfName? (beginning : List Char) (name : String) : Option String :=
  if beginning.isPrefixOf name.toList then
    some (String.ofList (name.toList.drop beginning.length))
  else none

/-- The atom that ends at a byte offset of a line, if there is one. -/
def atomBefore? (line : String) (position : Nat) : Option String :=
  match (Token.scan 0 (takeBytes position line.toList)).getLast? with
  | some ⟨.atom text, span⟩ => if span.stop = position then some text else none
  | _ => none

/-- The names that can be completed to: those seen from a frame, and the
keywords. -/
def completableNames (s : Store) (f : FrameId) : List String :=
  Store.sortNames (s.namesFrom f ++ Keyword.all.map Keyword.name)

/-- **The candidates at a byte offset of a line**, in increasing order of code
points. -/
def completions (s : Store) (f : FrameId) (line : String) (position : Nat) : List String :=
  match atomBefore? line position with
  | some beginning => (completableNames s f).filterMap (restOfName? beginning.toList)
  | none => []

end SmallLisp
