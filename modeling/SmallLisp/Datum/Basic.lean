import SmallLisp.Atom
import SmallLisp.Primitive.Basic
import SmallLisp.Span

/-!
# Data

There is one kind of tree for everything: a program as it is read, and the values it
computes. A datum is an atom, a list, or a procedure, and carries the span of the
source it stands for. Reading never produces procedures; they come from evaluation,
and may then stand inside lists like any other value.

A closure has an identity of its own, given out when it is made: two closures are
equal only if they are the same one, however alike their texts. It refers to the
frame it was made in by that frame's number in the store (`SmallLisp.FrameId`).

* `SmallLisp.Datum` – the tree, with the induction principle
  `SmallLisp.Datum.induction`;
* `SmallLisp.Datum.kind`, `SmallLisp.Datum.isTruthy` – what a value is, and whether
  it counts as true;
* `SmallLisp.Procedure` – what can be applied.
-/

namespace SmallLisp

/-- The number of a frame of bindings. -/
abbrev FrameId := Nat

/-- **A datum**: a piece of program or a value. -/
inductive Datum where
  /-- An atom. -/
  | atom (value : Atom) (span : Span)
  /-- A list. -/
  | list (elements : List Datum) (span : Span)
  /-- A primitive procedure. -/
  | primitive (which : Primitive) (span : Span)
  /-- A procedure made by `lambda`, with its identity, its parameters, the
  expressions of its body and the frame that its free names are looked up in. -/
  | closure (id : Nat) (params : List String) (body : List Datum) (frame : FrameId) (span : Span)

namespace Datum

instance : Inhabited Datum := ⟨.list [] Span.none⟩

/-- **Induction on data**: what holds of a datum when it holds of the elements of a
list, and of the body of a closure, holds of every datum. -/
theorem induction {motive : Datum → Prop}
    (atom : ∀ value span, motive (.atom value span))
    (list : ∀ elements span, (∀ e ∈ elements, motive e) → motive (.list elements span))
    (primitive : ∀ which span, motive (.primitive which span))
    (closure : ∀ id params body frame span, (∀ e ∈ body, motive e) →
      motive (.closure id params body frame span))
    (d : Datum) : motive d :=
  @Datum.rec motive (fun ds => ∀ e ∈ ds, motive e) atom list primitive closure
    (fun _ h => absurd h List.not_mem_nil)
    (fun _ _ hd hds e he => (List.mem_cons.mp he).elim (fun h => h ▸ hd) (hds e)) d

/-! ### Data made of atoms -/

/-- A number. -/
@[match_pattern]
abbrev number (x : Float) (span : Span) : Datum := .atom (.number x) span

/-- A boolean. -/
@[match_pattern]
abbrev boolean (b : Bool) (span : Span) : Datum := .atom (.boolean b) span

/-- A symbol. -/
@[match_pattern]
abbrev symbol (name : String) (span : Span) : Datum := .atom (.symbol name) span

/-! ### Spans -/

/-- The source that a datum stands for. -/
def span : Datum → Span
  | .atom _ s => s
  | .list _ s => s
  | .primitive _ s => s
  | .closure _ _ _ _ s => s

/-- The same datum, standing for another part of the source. The elements of a list
keep their spans. -/
def withSpan (s : Span) : Datum → Datum
  | .atom a _ => .atom a s
  | .list es _ => .list es s
  | .primitive p _ => .primitive p s
  | .closure id params body frame _ => .closure id params body frame s

@[simp]
theorem span_withSpan (s : Span) (d : Datum) : (d.withSpan s).span = s := by cases d <;> rfl

@[simp]
theorem withSpan_span (d : Datum) : d.withSpan d.span = d := by cases d <;> rfl

@[simp]
theorem withSpan_withSpan (s t : Span) (d : Datum) :
    (d.withSpan s).withSpan t = d.withSpan t := by
  cases d <;> rfl

/-! ### What a value is -/

/-- The kinds of value that the type predicates tell apart. -/
inductive Kind where
  | number
  | string
  | boolean
  | symbol
  | list
  | procedure
deriving DecidableEq

/-- The word for a kind in error messages. -/
def Kind.name : Kind → String
  | .number => "number"
  | .string => "string"
  | .boolean => "boolean"
  | .symbol => "symbol"
  | .list => "list"
  | .procedure => "procedure"

/-- The kind of a value. -/
def kind : Datum → Kind
  | .atom (.number _) _ => .number
  | .atom (.text _) _ => .string
  | .atom (.boolean _) _ => .boolean
  | .atom (.symbol _) _ => .symbol
  | .list _ _ => .list
  | .primitive _ _ => .procedure
  | .closure _ _ _ _ _ => .procedure

/-- Only `nil` is false. Zero, the empty text and the empty list are true. -/
def isTruthy : Datum → Bool
  | .atom (.boolean b) _ => b
  | _ => true

@[simp]
theorem kind_withSpan (s : Span) (d : Datum) : (d.withSpan s).kind = d.kind := by
  rcases d with ⟨_ | _ | _ | _, _⟩ | _ | _ | _ <;> rfl

@[simp]
theorem isTruthy_withSpan (s : Span) (d : Datum) : (d.withSpan s).isTruthy = d.isTruthy := by
  rcases d with ⟨_ | _ | _ | _, _⟩ | _ | _ | _ <;> rfl

mutual

/-- Whether a value is a closure or a list that holds one, at any depth. -/
def holdsClosure : Datum → Bool
  | .atom _ _ => false
  | .list es _ => anyHoldsClosure es
  | .primitive _ _ => false
  | .closure _ _ _ _ _ => true

/-- Whether some value of a list is or holds a closure. -/
def anyHoldsClosure : List Datum → Bool
  | [] => false
  | d :: ds => holdsClosure d || anyHoldsClosure ds

end

theorem anyHoldsClosure_eq (ds : List Datum) : anyHoldsClosure ds = ds.any holdsClosure := by
  induction ds with
  | nil => rfl
  | cons d ds ih => simp [anyHoldsClosure, ih]

@[simp]
theorem holdsClosure_list (es : List Datum) (s : Span) :
    holdsClosure (.list es s) = es.any holdsClosure := by
  rw [holdsClosure, anyHoldsClosure_eq]

end Datum

/-! ### Procedures -/

/-- A closure, apart from the span of the value that holds it. -/
structure Closure where
  /-- The identity given out when the closure was made. -/
  id : Nat
  /-- The names that the arguments are bound to. -/
  params : List String
  /-- The expressions evaluated by a call. -/
  body : List Datum
  /-- The frame that encloses the frame of each call. -/
  frame : FrameId

/-- **What can be applied to arguments.** -/
inductive Procedure where
  /-- A primitive. -/
  | primitive (which : Primitive)
  /-- A procedure made by `lambda`. -/
  | closure (c : Closure)

/-- The procedure that a value is, if it is one. -/
def Datum.procedure? : Datum → Option Procedure
  | .primitive p _ => some (.primitive p)
  | .closure id params body frame _ => some (.closure ⟨id, params, body, frame⟩)
  | _ => none

theorem Datum.isSome_procedure?_iff (d : Datum) :
    d.procedure?.isSome = true ↔ d.kind = .procedure := by
  rcases d with ⟨_ | _ | _ | _, _⟩ | _ | _ | _ <;> simp [procedure?, kind]

end SmallLisp
