import SmallLisp.Datum.Basic
import SmallLisp.Token

/-!
# Reading expressions

The reader turns tokens into data. It keeps the lists that are open and not yet
closed, innermost first, and takes one token at a time: an opening parenthesis opens
a list, an atom is added to the innermost open list, and a closing parenthesis
closes that list and adds it to the one around it. The first datum that is finished
with no list open is the expression read, and the tokens after it are left for the
next one.

* `SmallLisp.ReadError` – what can be wrong with a text;
* `SmallLisp.readExpr` – **one expression from the front of the tokens**;
* `SmallLisp.readProgram` – every expression of a text;
* `SmallLisp.readFirst` – the first expression of a text, the rest of which has to
  be well formed too.
-/

namespace SmallLisp

/-! ### Errors -/

/-- **What can be wrong with a text.** -/
inductive ReadError where
  /-- There is nothing but blanks; the span is the whole text. -/
  | empty (text : Span)
  /-- A list is not closed; the span is that of its opening parenthesis. -/
  | unclosed (opening : Span)
  /-- A closing parenthesis closes nothing. -/
  | stray (closing : Span)
deriving DecidableEq

namespace ReadError

/-- Where the error is. -/
def span : ReadError → Span
  | empty s => s
  | unclosed s => s
  | stray s => s

/-- The text of the error. -/
def message : ReadError → String
  | empty _ => "Invalid command: input is empty"
  | unclosed s => "Unexpected end of input: expected ')' to close '(' at " ++ s.render
  | stray s => "Syntax error: mismatched parenthesis at " ++ s.render

end ReadError

/-! ### One expression -/

/-- A list whose closing parenthesis has not been read yet. -/
structure OpenList where
  /-- The span of the opening parenthesis. -/
  opening : Span
  /-- The elements read so far, the latest first. -/
  elements : List Datum

namespace OpenList

/-- The open list with one more element. -/
def push (o : OpenList) (d : Datum) : OpenList := { o with elements := d :: o.elements }

/-- The list that a closing parenthesis at `closing` makes of an open list. -/
def close (o : OpenList) (closing : Span) : Datum :=
  .list o.elements.reverse (o.opening.merge closing)

end OpenList

/-- Reads on with the given lists open, innermost first, until the outermost of them
is closed or, with none open, until an expression is complete. Gives the expression
or the error, and the tokens that are left. -/
def readFrom : List OpenList → List Token → Except ReadError Datum × List Token
  | [], [] => (.error (.unclosed Span.none), [])
  | o :: _, [] => (.error (.unclosed o.opening), [])
  | pending, ⟨.opening, span⟩ :: tokens => readFrom (⟨span, []⟩ :: pending) tokens
  | [], ⟨.closing, span⟩ :: tokens => (.error (.stray span), tokens)
  | [o], ⟨.closing, span⟩ :: tokens => (.ok (o.close span), tokens)
  | o :: p :: pending, ⟨.closing, span⟩ :: tokens =>
    readFrom (p.push (o.close span) :: pending) tokens
  | [], ⟨.atom text, span⟩ :: tokens => (.ok (.atom (.ofText text) span), tokens)
  | o :: pending, ⟨.atom text, span⟩ :: tokens =>
    readFrom (o.push (.atom (.ofText text) span) :: pending) tokens

/-- **Reads one expression** from the front of the tokens. A failure has used up the
tokens it has looked at: the closing parenthesis that closes nothing, or all tokens
if a list is not closed. -/
def readExpr (tokens : List Token) : Except ReadError Datum × List Token := readFrom [] tokens

theorem length_readFrom_le (pending : List OpenList) (tokens : List Token) :
    (readFrom pending tokens).2.length ≤ tokens.length := by
  fun_induction readFrom pending tokens <;> simp_all <;> omega

/-- Reading an expression uses up at least one token, if there is one. -/
theorem length_readExpr_lt {tokens : List Token} (h : tokens ≠ []) :
    (readExpr tokens).2.length < tokens.length := by
  match tokens with
  | [] => exact absurd rfl h
  | ⟨.opening, span⟩ :: tokens =>
    have := length_readFrom_le [⟨span, []⟩] tokens
    simp only [readExpr, readFrom, List.length_cons]
    omega
  | ⟨.closing, _⟩ :: tokens => simp [readExpr, readFrom]
  | ⟨.atom _, _⟩ :: tokens => simp [readExpr, readFrom]

/-! ### Texts -/

/-- Reads expressions until the tokens are used up, or up to the first error. -/
def readAll (tokens : List Token) : Except ReadError (List Datum) :=
  if h : tokens = [] then .ok []
  else
    have := length_readExpr_lt h
    match (readExpr tokens).1 with
    | .error e => .error e
    | .ok d => (readAll (readExpr tokens).2).map (d :: ·)
termination_by tokens.length

/-- **The tokens of a text.** A text of blanks only is refused. -/
def tokenize (text : String) : Except ReadError (List Token) :=
  let cs := text.toList
  if cs.all isBlank then .error (.empty ⟨0, byteLength cs⟩) else .ok (Token.scan 0 cs)

/-- **Every expression of a text**, in order. -/
def readProgram (text : String) : Except ReadError (List Datum) := do
  readAll (← tokenize text)

/-- **The first expression of a text.** The others are dropped, and still have to be
well formed. -/
def readFirst (text : String) : Except ReadError Datum :=
  match readProgram text with
  | .error e => .error e
  | .ok (d :: _) => .ok d
  -- a text with a token has an expression or an error, so this is never reached
  | .ok [] => .error (.empty ⟨0, byteLength text.toList⟩)

end SmallLisp
