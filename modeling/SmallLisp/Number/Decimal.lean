import SmallLisp.Number.Double

/-!
# Decimal literals

A number literal is an optional sign, then digits with an optional point among or
after them or a point followed by digits, then an optional exponent. The infinities
and the not-a-number value have words of their own. A literal denotes the double
nearest to the decimal it spells, whatever its length; too large a value is an
infinity and too small a one a zero, both with the literal's sign.

* `SmallLisp.Decimal` – a signed decimal `digits · 10 ^ exponent`;
* `SmallLisp.Decimal.ofChars?` – **the grammar**, read over the whole text;
* `SmallLisp.Decimal.toFloat` – the nearest double;
* `SmallLisp.numberLiteral?` – decimals and the special words together.
-/

namespace SmallLisp

-- `b ^ e` is the power of natural numbers, also where a more general one is known
attribute [local instance (high)] instPowNat

/-- A decimal: `digits · 10 ^ exponent`, or its negation. -/
structure Decimal where
  /-- Whether a minus sign is written. -/
  negative : Bool
  /-- All digits written, those after the point included. -/
  digits : Nat
  /-- The power of ten that the digits are scaled by. -/
  exponent : Int
deriving DecidableEq

namespace Decimal

/-! ### The grammar -/

/-- An optional sign and what follows it. -/
def splitSign : List Char → Bool × List Char
  | '-' :: cs => (true, cs)
  | '+' :: cs => (false, cs)
  | cs => (false, cs)

/-- The value of a nonempty run of digits, the whole text. -/
def digits? (cs : List Char) : Option Nat :=
  if cs ≠ [] ∧ cs.all Char.isDigit then some (Nat.ofDigitChars 10 cs 0) else none

/-- The value of the exponent part, the whole text: nothing, or `e` or `E`, an
optional sign and digits. -/
def exponent? : List Char → Option Int
  | [] => some 0
  | c :: cs =>
    if c = 'e' ∨ c = 'E' then
      let (negative, ds) := splitSign cs
      (digits? ds).map fun n => if negative then -(n : Int) else n
    else none

/-- The parts of an unsigned decimal before its exponent: the digits before the
point, those after it, and the rest of the text. -/
def parts (cs : List Char) : List Char × List Char × List Char :=
  match cs.dropWhile Char.isDigit with
  | '.' :: rest =>
    (cs.takeWhile Char.isDigit, rest.takeWhile Char.isDigit, rest.dropWhile Char.isDigit)
  | rest => (cs.takeWhile Char.isDigit, [], rest)

/-- **The decimal that a text spells**, if the whole text is a literal. -/
def ofChars? (cs : List Char) : Option Decimal :=
  let (negative, body) := splitSign cs
  let (whole, fraction, rest) := parts body
  if whole = [] ∧ fraction = [] then none
  else
    (exponent? rest).map fun e =>
      ⟨negative, Nat.ofDigitChars 10 (whole ++ fraction) 0, e - fraction.length⟩

/-! ### The nearest double -/

/-- Powers of ten beyond this one are out of the range of doubles, and are not
worked out. -/
def exponentLimit : Nat := 400

/-- The magnitude nearest to `digits · 10 ^ exponent`. A decimal that is at least
`10 ^ 400` is an infinity and one that is below `10 ^ -400` a zero, by the number of
its binary digits alone. -/
def magnitude (digits : Nat) (exponent : Int) : Nat :=
  if digits = 0 then 0
  else if (exponentLimit : Int) < exponent then Double.infinity
  else if exponent + digits.log2 + 1 < -(exponentLimit : Int) then 0
  else Double.nearest (digits * 10 ^ exponent.toNat) (10 ^ (-exponent).toNat)

/-- **The double nearest to a decimal.** -/
def toFloat (d : Decimal) : Float :=
  Double.ofMagnitude d.negative (magnitude d.digits d.exponent)

end Decimal

/-! ### Literals -/

/-- The doubles that have a word of their own: the infinities and the value that is
not a number. -/
def namedNumber? (cs : List Char) : Option Float :=
  match String.ofList cs with
  | "inf" => some (Double.ofMagnitude false Double.infinity)
  | "+inf" => some (Double.ofMagnitude false Double.infinity)
  | "-inf" => some (Double.ofMagnitude true Double.infinity)
  | "nan" => some (Double.ofMagnitude false (Double.infinity + 2 ^ (51 : Nat)))
  | _ => none

/-- **The double that a text spells**, if the whole text is a number literal. -/
def numberLiteral? (cs : List Char) : Option Float :=
  match Decimal.ofChars? cs with
  | some d => some d.toFloat
  | none => namedNumber? cs

end SmallLisp
