import SmallLisp.Interpreter
import SmallLisp.Shell.Completion

/-!
# Sessions

A session is a store with names for things in it: interpreters, frames and values.
Each step does one operation on named things, gives an answer, and may save a value
under a name. Names given by a session are apart from the names that programs bind.

* `SmallLisp.Session.Step` – what can be asked;
* `SmallLisp.Session.Reply` – what is answered if nothing goes wrong;
* `SmallLisp.Session.step` – **one step**;
* `SmallLisp.Session.steps` – the answers to several steps, one after the other.
-/

namespace SmallLisp

/-- **A session**: a store, and names for interpreters, frames and values. -/
structure Session where
  /-- The store that everything in the session lives in. -/
  store : Store
  /-- The interpreters that have a name. -/
  interpreters : List (String × Interpreter)
  /-- The frames that have a name. -/
  frames : List (String × FrameId)
  /-- The values that have been saved. -/
  values : List (String × Datum)

namespace Session

/-! ### Steps and replies -/

/-- A datum that a step works on. -/
inductive Operand where
  /-- A saved value. -/
  | saved (name : String)
  /-- The first expression of a text, not evaluated. -/
  | text (source : String)

/-- Where an expression is evaluated. -/
inductive Place where
  /-- In a frame that has a name. -/
  | frame (name : String)
  /-- In the root of an interpreter. -/
  | root (interpreter : String)

/-- The frames that a step can make. -/
inductive NewFrame where
  /-- A root that binds the primitives. -/
  | library
  /-- A frame inside another. -/
  | child (outer : String)
  /-- A root that binds nothing. -/
  | bare

/-- **What can be asked of a session.** The field `save` is the name that the
resulting value is saved under. -/
inductive Step where
  /-- Evaluates the first expression of a text. -/
  | run (interpreter text : String) (save : Option String)
  /-- Evaluates every expression of a text. -/
  | runAll (interpreter text : String)
  /-- Reads the first expression of a text. -/
  | parse (text : String) (save : Option String)
  /-- Makes a new interpreter. -/
  | newInterpreter (interpreter : String)
  /-- Makes an interpreter whose root is the given frame. -/
  | interpretIn (interpreter frame : String)
  /-- Gives an interpreter up. -/
  | dropInterpreter (interpreter : String)
  /-- Names the root of an interpreter. -/
  | nameRoot (interpreter frame : String)
  /-- Makes a frame. -/
  | newFrame (frame : String) (kind : NewFrame)
  /-- Binds a name to a datum. -/
  | set (frame name : String) (value : Operand) (save : Option String)
  /-- Looks a name up; the span is that of the error if it is unbound. -/
  | get (frame name : String) (span : Span) (save : Option String)
  /-- Finds the frame that binds a name. -/
  | find (frame name : String)
  /-- Removes every binding of a frame. -/
  | clear (frame : String)
  /-- Lists the names that can be seen. -/
  | identifiers (frame : String)
  /-- Evaluates a datum. -/
  | eval (value : Operand) (place : Place) (save : Option String)
  /-- Applies a saved procedure to saved values. -/
  | apply (procedure : String) (args : List String) (span : Span) (save : Option String)
  /-- Compares two saved values. -/
  | equal (a b : String)
  /-- Tells what a saved value is. -/
  | inspect (value : String)
  /-- Tells what a saved procedure is, and names the frame of a closure. -/
  | procedure (value : String) (frame : Option String)
  /-- Completes the atom before a byte offset of a line. -/
  | complete (frame line : String) (position : Nat)

/-- **What a session answers** if nothing goes wrong. -/
inductive Reply where
  /-- The step is done. -/
  | done
  /-- A value. -/
  | datum (d : Datum)
  /-- Values in order. -/
  | data (ds : List Datum)
  /-- Names in order. -/
  | names (names : List String)
  /-- A name of the frame that was found, if one was found. -/
  | found (name : Option String)
  /-- Whether two data are equal as nodes, and whether they are but for their own
  spans. -/
  | equality (nodes shapes : Bool)
  /-- The kind of a value, whether it counts as true, and its printed form. -/
  | inspection (kind : Datum.Kind) (truthy : Bool) (text : String)
  /-- A procedure. -/
  | procedure (p : Procedure)
  /-- The candidates for completion at an offset. -/
  | candidates (position : Nat) (texts : List String)

/-- Why a step cannot be answered at all. -/
inductive Trouble where
  /-- Nothing of the kind asked for has this name. -/
  | unknown (name : String)
  /-- The value of this name cannot be applied. -/
  | notProcedure (name : String)
  /-- The evaluation comes to no end within the depth allowed. -/
  | outOfDepth

/-- What a session answers to a step. -/
abbrev Answer := Except Error Reply

/-! ### Names -/

/-- The session that every run starts with: one interpreter, of the given name. -/
def start (interpreter : String) : Session :=
  let (i, s) := Interpreter.new .empty
  ⟨s, [(interpreter, i)], [], []⟩

/-- What a name stands for. -/
def named {α : Type} (table : List (String × α)) (name : String) : Except Trouble α :=
  match table.lookup name with
  | some a => .ok a
  | none => .error (.unknown name)

/-- The names of a table without one of them. -/
def forget {α : Type} (table : List (String × α)) (name : String) : List (String × α) :=
  table.filter fun e => e.1 ≠ name

/-- Gives a name to something; what had the name before loses it. -/
def giveName {α : Type} (table : List (String × α)) (name : String) (a : α) : List (String × α) :=
  (name, a) :: forget table name

/-- Saves a value, if there is a name for it. -/
def save (sess : Session) (name : Option String) (d : Datum) : Session :=
  match name with
  | some name => { sess with values := giveName sess.values name d }
  | none => sess

/-- Names a frame. -/
def nameFrame (sess : Session) (name : String) (f : FrameId) : Session :=
  { sess with frames := giveName sess.frames name f }

/-- The first of the names that a frame has in a session, in increasing order; a
question mark if it has none. -/
def nameOfFrame (sess : Session) (f : FrameId) : String :=
  (Store.sortNames ((sess.frames.filter fun e => e.2 = f).map Prod.fst)).headD "?"

/-- Forgets the interpreter of a name and gives it up. -/
def dropNamed (sess : Session) (name : String) : Session :=
  match sess.interpreters.lookup name with
  | some i =>
    { sess with store := i.drop sess.store, interpreters := forget sess.interpreters name }
  | none => sess

/-- Names an interpreter; the one that had the name before is given up. -/
def nameInterpreter (sess : Session) (name : String) (i : Interpreter) : Session :=
  let sess := sess.dropNamed name
  { sess with interpreters := (name, i) :: sess.interpreters }

/-! ### Answering -/

/-- Runs an action on the store of a session. -/
def perform {ε α : Type} (sess : Session) (x : Action ε α) :
    Except Trouble (Except ε α × Session) :=
  match x sess.store with
  | some (r, s) => .ok (r, { sess with store := s })
  | none => .error .outOfDepth

/-- Answers with a value, which is saved if there is a name for it, or with the
error. -/
def answerDatum (sess : Session) (name : Option String) (r : Except Error Datum) :
    Answer × Session :=
  match r with
  | .ok d => (.ok (.datum d), sess.save name d)
  | .error e => (.error e, sess)

/-- The datum that an operand stands for. -/
def operand (sess : Session) : Operand → Except Trouble (Except Error Datum)
  | .saved name => do
    let d ← named sess.values name
    return .ok d
  | .text source => return (readFirst source).mapError Error.read

/-- The frame that a place stands for. -/
def place (sess : Session) : Place → Except Trouble FrameId
  | .frame name => named sess.frames name
  | .root name => do
    let i ← named sess.interpreters name
    return i.root

/-- The saved procedure of a name. -/
def procedureOf (sess : Session) (name : String) : Except Trouble Procedure := do
  let d ← named sess.values name
  match d.procedure? with
  | some p => return p
  | none => .error (.notProcedure name)

/-- The frame that a procedure was made in, if it is a closure. -/
def frameOf? : Procedure → Option FrameId
  | .primitive _ => none
  | .closure c => some c.frame

variable (policy : FramePolicy) (depth : Nat)

/-- **One step of a session**: the answer, and the session afterwards. -/
def step (sess : Session) : Step → Except Trouble (Answer × Session)
  | .run interpreter text save => do
    let i ← named sess.interpreters interpreter
    let (r, sess) ← sess.perform (i.run policy depth text)
    return sess.answerDatum save r
  | .runAll interpreter text => do
    let i ← named sess.interpreters interpreter
    let (r, sess) ← sess.perform (i.runAll policy depth text)
    return (r.map .data, sess)
  | .parse text save => return sess.answerDatum save ((readFirst text).mapError Error.read)
  | .newInterpreter interpreter =>
    let (i, s) := Interpreter.new sess.store
    return (.ok .done, { sess with store := s }.nameInterpreter interpreter i)
  | .interpretIn interpreter frame => do
    let f ← named sess.frames frame
    return (.ok .done, sess.nameInterpreter interpreter ⟨f⟩)
  | .dropInterpreter interpreter => do
    let _ ← named sess.interpreters interpreter
    return (.ok .done, sess.dropNamed interpreter)
  | .nameRoot interpreter frame => do
    let i ← named sess.interpreters interpreter
    return (.ok .done, sess.nameFrame frame i.root)
  | .newFrame frame kind => do
    let (f, s) ← match kind with
      | .library => pure sess.store.addRoot
      | .bare => pure (sess.store.addFrame none .empty)
      | .child outer => do
        let o ← named sess.frames outer
        pure (sess.store.addFrame (some o) .empty)
    return (.ok .done, { sess with store := s }.nameFrame frame f)
  | .set frame name value save => do
    let f ← named sess.frames frame
    match ← sess.operand value with
    | .ok d => return { sess with store := sess.store.set f name d }.answerDatum save (.ok d)
    | .error e => return (.error e, sess)
  | .get frame name span save => do
    let f ← named sess.frames frame
    match sess.store.lookup? name f with
    | some d => return sess.answerDatum save (.ok d)
    | none => return (.error (.eval (.unbound name span)), sess)
  | .find frame name => do
    let f ← named sess.frames frame
    return (.ok (.found ((sess.store.find? name f).map sess.nameOfFrame)), sess)
  | .clear frame => do
    let f ← named sess.frames frame
    return (.ok .done, { sess with store := sess.store.clear f })
  | .identifiers frame => do
    let f ← named sess.frames frame
    return (.ok (.names (sess.store.visibleNames f)), sess)
  | .eval value place save => do
    match ← sess.operand value with
    | .ok d => do
      let f ← sess.place place
      let (r, sess) ← sess.perform ((SmallLisp.eval policy depth d f).mapError Error.eval)
      return sess.answerDatum save r
    | .error e => return (.error e, sess)
  | .apply procedure args span save => do
    let p ← sess.procedureOf procedure
    let ds ← args.mapM (named sess.values)
    let (r, sess) ← sess.perform ((SmallLisp.apply policy depth p ds span).mapError Error.eval)
    return sess.answerDatum save r
  | .equal a b => do
    let d ← named sess.values a
    let e ← named sess.values b
    return (.ok (.equality (d.sameNode e) (d.sameShape e)), sess)
  | .inspect value => do
    let d ← named sess.values value
    return (.ok (.inspection d.kind d.isTruthy d.render), sess)
  | .procedure value frame => do
    let p ← sess.procedureOf value
    match frame, frameOf? p with
    | some name, some f => return (.ok (.procedure p), sess.nameFrame name f)
    | _, _ => return (.ok (.procedure p), sess)
  | .complete frame line position => do
    let f ← named sess.frames frame
    return (.ok (.candidates position (completions sess.store f line position)), sess)

/-- **The answers to several steps**, one after the other. A step that cannot be
answered changes nothing. -/
def steps (sess : Session) : List Step → List (Except Trouble Answer)
  | [] => []
  | st :: sts =>
    match sess.step policy depth st with
    | .ok (a, sess) => .ok a :: steps sess sts
    | .error t => .error t :: steps sess sts

end Session

end SmallLisp
