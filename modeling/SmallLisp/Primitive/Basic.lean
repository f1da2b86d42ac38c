/-!
# The primitive procedures and their names

A root frame binds each primitive under its own name. Two of them have a second name
there, `first` for `car` and `rest` for `cdr`; under either name it is the same
primitive, and it prints and compares as such.
-/

namespace SmallLisp

/-- **The primitive procedures.** -/
inductive Primitive where
  /-- Sum. -/
  | add
  /-- Difference, or negation of a single number. -/
  | sub
  /-- Product. -/
  | mul
  /-- Quotient, or reciprocal of a single number. -/
  | div
  /-- Equality of values of any kind. -/
  | equal
  | less
  | lessEq
  | greater
  | greaterEq
  /-- First element of a list. -/
  | car
  /-- All elements but the first. -/
  | cdr
  /-- A list with one more element in front. -/
  | cons
  /-- The list of the arguments. -/
  | list
  /-- Whether the argument is the empty list. -/
  | isNull
  | isNumber
  | isBoolean
  | isSymbol
  | isString
  | isProcedure
deriving DecidableEq

namespace Primitive

/-- The name a primitive is known by. -/
def name : Primitive → String
  | add => "+"
  | sub => "-"
  | mul => "*"
  | div => "/"
  | equal => "="
  | less => "<"
  | lessEq => "<="
  | greater => ">"
  | greaterEq => ">="
  | car => "car"
  | cdr => "cdr"
  | cons => "cons"
  | list => "list"
  | isNull => "null?"
  | isNumber => "number?"
  | isBoolean => "boolean?"
  | isSymbol => "symbol?"
  | isString => "string?"
  | isProcedure => "procedure?"

/-- Every primitive. -/
def all : List Primitive :=
  [add, sub, mul, div, equal, less, lessEq, greater, greaterEq, car, cdr, cons, list, isNull,
    isNumber, isBoolean, isSymbol, isString, isProcedure]

theorem mem_all (p : Primitive) : p ∈ all := by cases p <;> decide

/-- A primitive is determined by its name. -/
theorem name_injective {p q : Primitive} (h : p.name = q.name) : p = q := by
  revert h
  cases p <;> cases q <;> decide

/-- **The names that a root frame binds**: every primitive's own, and two further
ones. -/
def library : List (String × Primitive) :=
  all.map (fun p => (p.name, p)) ++ [("first", car), ("rest", cdr)]

end Primitive

end SmallLisp
