import SmallLisp.Store.Bindings

/-!
# The store of frames

Names are looked up in a chain of frames. A frame has its own bindings and a link to
the frame around it; the store numbers the frames in the order in which they are
made, so a link goes to a smaller number. Frames are shared: closures, calls and
interpreters refer to them by number, and a binding made through one reference is
seen through all. The store also counts the closures made, which gives each of them
an identity.

* `SmallLisp.Store` – frames and the count of closures;
* `SmallLisp.Store.find?`, `SmallLisp.Store.lookup?` – **the walk outward**;
* `SmallLisp.Store.set`, `SmallLisp.Store.clear` – changes of a single frame;
* `SmallLisp.Store.visibleNames` – the names that a lookup would find.
-/

namespace SmallLisp

/-- **A frame**: its own bindings and the frame around it. -/
structure Frame where
  /-- The frame that lookups go on to, if there is one. -/
  outer : Option FrameId
  /-- The names bound here. -/
  bindings : Bindings

/-- **A store**: the frames made so far and the number of closures made so far. -/
structure Store where
  /-- The frames, each at its number. -/
  frames : Array Frame
  /-- The identity of the next closure. -/
  nextClosure : Nat

namespace Store

/-- The store in which nothing has been made yet. -/
def empty : Store := ⟨#[], 0⟩

instance : Inhabited Store := ⟨empty⟩

/-- The frame around a frame. -/
def outer? (s : Store) (f : FrameId) : Option FrameId := s.frames[f]?.bind Frame.outer

/-- The bindings of a frame's own. -/
def bindings (s : Store) (f : FrameId) : Bindings := (s.frames[f]?.map Frame.bindings).getD .empty

/-! ### Changes -/

/-- The number of a new frame with the given bindings, and the store that has it. -/
def addFrame (s : Store) (outer : Option FrameId) (bindings : Bindings) : FrameId × Store :=
  (s.frames.size, { s with frames := s.frames.push ⟨outer, bindings⟩ })

/-- The store with the bindings of one frame changed. -/
def modify (s : Store) (f : FrameId) (change : Bindings → Bindings) : Store :=
  { s with frames := s.frames.modify f fun fr => { fr with bindings := change fr.bindings } }

/-- Binds a name in a frame, whether or not it is bound there already. The frames
around it are not touched. -/
def set (s : Store) (f : FrameId) (name : String) (value : Datum) : Store :=
  s.modify f (·.insert name value)

/-- Binds names in a frame, one after the other. -/
def setAll (s : Store) (f : FrameId) (entries : List (String × Datum)) : Store :=
  entries.foldl (fun s e => s.set f e.1 e.2) s

/-- Removes every binding of a frame. Its link outward stays. -/
def clear (s : Store) (f : FrameId) : Store := s.modify f fun _ => .empty

/-- A new root frame that binds the primitives. -/
def addRoot (s : Store) : FrameId × Store :=
  let (f, s) := s.addFrame none .empty
  (f, s.setAll f (Primitive.library.map fun e => (e.1, .primitive e.2 Span.none)))

/-- The identity of a new closure, and the store that has given it out. -/
def addClosure (s : Store) : Nat × Store :=
  (s.nextClosure, { s with nextClosure := s.nextClosure + 1 })

/-! ### Lookup -/

/-- **The nearest frame that binds a name**, from a frame outward. Only links to
earlier frames are followed, and there are no others in a store made by the
operations above. -/
def find? (s : Store) (name : String) (f : FrameId) : Option FrameId :=
  if (s.bindings f).binds name then some f
  else
    match s.outer? f with
    | some o => if o < f then s.find? name o else none
    | none => none
termination_by f

/-- **The value of a name**, as the nearest frame that binds it has it. -/
def lookup? (s : Store) (name : String) (f : FrameId) : Option Datum :=
  (s.find? name f).bind fun g => (s.bindings g).get? name

/-- The names bound in a frame or in one around it, those of the frame first. -/
def namesFrom (s : Store) (f : FrameId) : List String :=
  match s.outer? f with
  | some o => if o < f then (s.bindings f).names ++ s.namesFrom o else (s.bindings f).names
  | none => (s.bindings f).names
termination_by f

/-- Names in increasing order of code points, each once. -/
def sortNames (names : List String) : List String := names.eraseDups.mergeSort (· ≤ ·)

/-- **The names that a lookup from a frame would find**, in order. -/
def visibleNames (s : Store) (f : FrameId) : List String := sortNames (s.namesFrom f)

/-! ### What a change changes -/

@[simp]
theorem size_modify (s : Store) (f : FrameId) (change : Bindings → Bindings) :
    (s.modify f change).frames.size = s.frames.size := by
  simp [modify]

@[simp]
theorem outer?_modify (s : Store) (f g : FrameId) (change : Bindings → Bindings) :
    (s.modify f change).outer? g = s.outer? g := by
  simp only [outer?, modify, Array.getElem?_modify]
  split
  · next h =>
    subst h
    cases s.frames[f]? <;> rfl
  · rfl

theorem bindings_modify (s : Store) (f g : FrameId) (change : Bindings → Bindings)
    (h : f < s.frames.size) :
    (s.modify f change).bindings g = if f = g then change (s.bindings g) else s.bindings g := by
  simp only [bindings, modify, Array.getElem?_modify]
  split
  · next e =>
    subst e
    simp [Array.getElem?_eq_getElem h]
  · rfl

/-- Clearing one frame leaves the bindings of the others alone. -/
theorem bindings_clear_of_ne (s : Store) {f g : FrameId} (h : f ≠ g) :
    (s.clear f).bindings g = s.bindings g := by
  simp [clear, modify, bindings, Array.getElem?_modify, h]

/-- A cleared frame binds nothing. -/
@[simp]
theorem bindings_clear_self (s : Store) (f : FrameId) : (s.clear f).bindings f = .empty := by
  simp only [clear, modify, bindings, Array.getElem?_modify]
  cases s.frames[f]? <;> rfl

@[simp]
theorem outer?_set (s : Store) (f g : FrameId) (name : String) (value : Datum) :
    (s.set f name value).outer? g = s.outer? g :=
  outer?_modify s f g _

@[simp]
theorem outer?_clear (s : Store) (f g : FrameId) : (s.clear f).outer? g = s.outer? g :=
  outer?_modify s f g _

end Store

end SmallLisp
