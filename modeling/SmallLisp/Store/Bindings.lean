import SmallLisp.Datum.Basic

/-!
# The bindings of a frame

A frame binds names to values, each name at most once. Bindings are kept in the
order in which their names were first bound; binding a name again replaces its
value. What can be seen of them is `SmallLisp.Bindings.get?`, and each operation has
its equation for it.
-/

namespace SmallLisp

/-- **Bindings** of names to values. -/
structure Bindings where
  /-- Names and values, in the order in which the names were first bound. -/
  entries : List (String × Datum)

namespace Bindings

/-- No bindings. -/
def empty : Bindings := ⟨[]⟩

/-- The value that a name is bound to. -/
def get? (b : Bindings) (name : String) : Option Datum := b.entries.lookup name

/-- Whether a name is bound. -/
def binds (b : Bindings) (name : String) : Bool := (b.get? name).isSome

/-- Replaces the value of a name where it stands, or adds the name at the end. -/
def insertEntry (name : String) (value : Datum) : List (String × Datum) → List (String × Datum)
  | [] => [(name, value)]
  | (n, v) :: es => if n = name then (n, value) :: es else (n, v) :: insertEntry name value es

/-- The bindings with `name` bound to `value`. -/
def insert (b : Bindings) (name : String) (value : Datum) : Bindings :=
  ⟨insertEntry name value b.entries⟩

/-- The names that are bound. -/
def names (b : Bindings) : List String := b.entries.map Prod.fst

/-! ### What can be seen -/

@[simp]
theorem get?_empty (name : String) : empty.get? name = none := rfl

theorem lookup_insertEntry (name m : String) (value : Datum) (es : List (String × Datum)) :
    (insertEntry name value es).lookup m = if m = name then some value else es.lookup m := by
  induction es with
  | nil =>
    by_cases h : m = name
    · simp [insertEntry, h]
    · simp [insertEntry, List.lookup_cons, h, beq_false_of_ne h]
  | cons e es ih =>
    obtain ⟨n, v⟩ := e
    simp only [insertEntry]
    by_cases hn : n = name
    · subst hn
      by_cases h : m = n
      · simp [h]
      · simp [List.lookup_cons, h, beq_false_of_ne h]
    · by_cases h : m = n
      · have hm : m ≠ name := fun hm => hn (h.symm.trans hm)
        simp [hn, h]
      · simp [List.lookup_cons, hn, beq_false_of_ne h, ih]

/-- Binding a name changes what that name is bound to, and nothing else. -/
@[simp]
theorem get?_insert (b : Bindings) (name m : String) (value : Datum) :
    (b.insert name value).get? m = if m = name then some value else b.get? m :=
  lookup_insertEntry name m value b.entries

/-- The names are those that have a value. -/
theorem mem_names_iff {b : Bindings} {name : String} : name ∈ b.names ↔ (b.get? name).isSome := by
  obtain ⟨es⟩ := b
  simp only [names, get?]
  induction es with
  | nil => simp
  | cons e es ih =>
    obtain ⟨n, v⟩ := e
    by_cases h : name = n
    · simp [h]
    · simp only [List.map_cons, List.mem_cons, h, false_or, ih, List.lookup_cons, beq_false_of_ne h]

theorem binds_iff {b : Bindings} {name : String} : b.binds name = true ↔ name ∈ b.names := by
  rw [binds, mem_names_iff]

end Bindings

end SmallLisp
