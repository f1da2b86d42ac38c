/-!
# Whether an input is complete

While some list of an input is still open, more lines have to follow. Only the
parentheses count: quotes have no meaning, as atoms end at blanks whether or not
they have opened a quote. A closing parenthesis that closes nothing cannot be mended
by anything that follows, so such an input counts as complete and is left for the
reader to refuse.
-/

namespace SmallLisp

/-- The number of lists that are open after the given characters, if `depth` of them
were open before; `none` from a closing parenthesis on that closes nothing. -/
def openDepth? (depth : Nat) : List Char → Option Nat
  | [] => some depth
  | '(' :: cs => openDepth? (depth + 1) cs
  | ')' :: cs =>
    match depth with
    | 0 => none
    | depth + 1 => openDepth? depth cs
  | _ :: cs => openDepth? depth cs

/-- **Whether an input waits for more lines**: some list is open, and nothing is
closed that was not opened. -/
def waitsForMore (cs : List Char) : Bool :=
  match openDepth? 0 cs with
  | some depth => 0 < depth
  | none => false

/-- Depths add up along a text, up to a parenthesis that closes nothing. -/
theorem openDepth?_append (depth : Nat) (cs ds : List Char) :
    openDepth? depth (cs ++ ds) = (openDepth? depth cs).bind fun d => openDepth? d ds := by
  fun_induction openDepth? depth cs <;> simp_all [openDepth?]

end SmallLisp
