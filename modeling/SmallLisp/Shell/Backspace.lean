import SmallLisp.Text.Bytes
import SmallLisp.Text.Cluster.Basic

/-!
# Backspaces in the input

A backspace character in the input stands for the key: it takes back the cluster
before it, and does nothing where none is left.

What has been typed is kept together with the size in bytes of each of its clusters.
A size is kept in one byte, so of a cluster of 256 bytes or more a backspace takes back
only the remainder.

* `SmallLisp.applyBackspaces` – **the text that is left**;
* `SmallLisp.applyBackspaces_of_notMem` – a text without backspaces stays as it is.
-/

namespace SmallLisp

/-- The backspace character. -/
def backspace : Char := '\x08'

/-- A text that has been typed. -/
structure Typed where
  /-- The characters, the latest first. -/
  text : List Char
  /-- The sizes of the clusters that can be taken back, the latest first. -/
  sizes : List Nat

namespace Typed

/-- Nothing typed yet. -/
def empty : Typed := ⟨[], []⟩

/-- Takes back the latest cluster. -/
def takeBack (t : Typed) : Typed :=
  match t.sizes with
  | [] => t
  | size :: sizes => ⟨dropBytes size t.text, sizes⟩

/-- One more cluster is typed. -/
def enter (t : Typed) (cluster : List Char) : Typed :=
  if cluster = [backspace] then t.takeBack
  else ⟨cluster.reverse ++ t.text, byteLength cluster % 256 :: t.sizes⟩

/-- Clusters other than the backspace are added at the end. -/
theorem text_foldl_enter {clusters : List (List Char)} (h : [backspace] ∉ clusters) (t : Typed) :
    (clusters.foldl enter t).text = clusters.flatten.reverse ++ t.text := by
  induction clusters generalizing t with
  | nil => simp
  | cons cluster clusters ih =>
    simp only [List.mem_cons, not_or] at h
    simp [ih h.2, enter, Ne.symm h.1]

end Typed

/-- **The text that backspaces leave.** -/
def applyBackspaces (cs : List Char) : List Char :=
  ((clusters cs).foldl Typed.enter .empty).text.reverse

/-- **A text without backspaces stays as it is.** -/
theorem applyBackspaces_of_notMem {cs : List Char} (h : backspace ∉ cs) :
    applyBackspaces cs = cs := by
  have : [backspace] ∉ clusters cs := fun hb => h (mem_of_mem_clusters hb (by simp))
  simp [applyBackspaces, Typed.text_foldl_enter this, Typed.empty]

end SmallLisp
