import Mathlib
import SmallLisp.Proofs.Shell.Blocks
import SmallLisp.Proofs.Waiting
import SmallLisp.Shell.Basic

/-!
# The loop of the shell

The shell takes its inputs one by one. It evaluates what they are without the blanks around
them, and skips those that are blank, up to the first that says `exit`
(`SmallLisp.evaluatedLines`). Each line is evaluated in the store that the lines before it have
left, those that failed among them (`SmallLisp.evaluateInTurn`); and what the shell writes is
what comes of these lines, with a farewell if it was not told to exit
(`SmallLisp.Shell.map_fst_run`).

An input is handed over when it is complete as it was typed, but it is read without the blanks
around it. They are no parentheses (`SmallLisp.waitsForMore_trimBlanks`), so the reader never
finds a list that is not closed, nor a line with nothing in it.
-/

namespace SmallLisp

/-! ### Trimming -/

/-- Trimming takes blanks off either end. -/
theorem exists_trimBlanks (cs : List Char) :
    ∃ before after : List Char, cs = before ++ trimBlanks cs ++ after ∧
      (∀ c ∈ before, isBlank c = true) ∧ ∀ c ∈ after, isBlank c = true := by
  refine ⟨cs.takeWhile isBlank, ((cs.dropWhile isBlank).reverse.takeWhile isBlank).reverse,
    ?_, fun c hc => List.mem_takeWhile_imp hc,
    fun c hc => List.mem_takeWhile_imp (List.mem_reverse.mp hc)⟩
  rw [trimBlanks, List.append_assoc, ← List.reverse_append, List.takeWhile_append_dropWhile,
    List.reverse_reverse, List.takeWhile_append_dropWhile]

/-- Something is left of a text that is not blank, and it is not blank either. -/
theorem not_blank_trimBlanks {cs : List Char} (h : trimBlanks cs ≠ []) :
    ¬∀ c ∈ trimBlanks cs, isBlank c = true := by
  intro hblank
  obtain ⟨before, after, hcs, hbefore, hafter⟩ := exists_trimBlanks cs
  have hall : ∀ c ∈ cs, isBlank c = true := by
    rw [hcs, List.forall_mem_append, List.forall_mem_append]
    exact ⟨⟨hbefore, hblank⟩, hafter⟩
  have hnil : cs.dropWhile isBlank = [] := List.dropWhile_eq_nil_iff.mpr hall
  rw [trimBlanks, hnil] at h
  exact h rfl

theorem openDepth?_of_blank {cs : List Char} (h : ∀ c ∈ cs, isBlank c = true) (depth : Nat) :
    openDepth? depth cs = some depth := by
  fun_induction openDepth? depth cs with
  | case1 => rfl
  -- neither parenthesis is blank
  | case2 => simp at h
  | case3 => simp at h
  | case4 => simp at h
  | case5 depth c cs _ _ ih => exact ih (List.forall_mem_cons.mp h).2

/-- **Blanks around an input do not count** when it is asked whether it is complete. -/
theorem waitsForMore_trimBlanks (cs : List Char) :
    waitsForMore (trimBlanks cs) = waitsForMore cs := by
  obtain ⟨before, after, hcs, hbefore, hafter⟩ := exists_trimBlanks cs
  have hdepth : openDepth? 0 cs = openDepth? 0 (trimBlanks cs) := by
    conv_lhs => rw [hcs, openDepth?_append, openDepth?_append, openDepth?_of_blank hbefore]
    simp only [openDepth?_of_blank hafter, Option.bind_some, Option.bind_fun_some]
  rw [waitsForMore, waitsForMore, hdepth]

/-! ### Lines in turn -/

section Turn

variable (policy : FramePolicy) (depth : Nat) (i : Interpreter)

/-- **Evaluates lines one after the other**, each in the store that the one before it has left,
whether or not that one failed. Gives each line with what came of it. -/
def evaluateInTurn : List String → Store → Option (List (String × LineResult) × Store)
  | [], s => some ([], s)
  | line :: lines, s => do
    let (r, s) ← evaluateLine policy depth i line s
    let (rs, s) ← evaluateInTurn lines s
    return ((line, r) :: rs, s)

theorem evaluateInTurn_cons (line : String) (lines : List String) (s : Store) :
    evaluateInTurn policy depth i (line :: lines) s =
      (evaluateLine policy depth i line s).bind fun o =>
        (evaluateInTurn policy depth i lines o.2).map fun p => ((line, o.1) :: p.1, p.2) := by
  rw [evaluateInTurn]
  rcases evaluateLine policy depth i line s with - | ⟨r, t⟩
  · rfl
  · simp only [Option.bind_eq_bind, Option.bind_some]
    rcases evaluateInTurn policy depth i lines t with - | p <;> rfl

end Turn

/-- **The lines that are evaluated of inputs**: the inputs without the blanks around them, up to
the first that is `exit`, and without those that are blank. -/
def evaluatedLines (inputs : List (List Char)) : List String :=
  (((inputs.map trimBlanks).takeWhile (! Shell.isExit ·)).filter (· ≠ [])).map String.ofList

/-- What is written about lines. -/
def transcript (rs : List (String × LineResult)) : Output :=
  rs.foldr (fun p o => p.2.output p.1 ++ o) .empty

/-- Whether some input is `exit`. -/
def saysExit (inputs : List (List Char)) : Bool := (inputs.map trimBlanks).any Shell.isExit

section Inputs

variable {input : List Char} (inputs : List (List Char))

theorem evaluatedLines_of_blank (h : trimBlanks input = []) :
    evaluatedLines (input :: inputs) = evaluatedLines inputs ∧
      saysExit (input :: inputs) = saysExit inputs := by
  have hexit : Shell.isExit [] = false := by decide
  simp [evaluatedLines, saysExit, h, hexit]

theorem evaluatedLines_of_exit (h : Shell.isExit (trimBlanks input) = true) :
    evaluatedLines (input :: inputs) = [] ∧ saysExit (input :: inputs) = true := by
  simp [evaluatedLines, saysExit, h]

theorem evaluatedLines_of_line (hne : trimBlanks input ≠ [])
    (h : Shell.isExit (trimBlanks input) = false) :
    evaluatedLines (input :: inputs) =
        String.ofList (trimBlanks input) :: evaluatedLines inputs ∧
      saysExit (input :: inputs) = saysExit inputs := by
  simp [evaluatedLines, saysExit, h, hne]

end Inputs

namespace Shell

variable {policy : FramePolicy} {depth : Nat}

theorem output_empty_append (o : Output) : Output.empty ++ o = o := by
  change Output.append Output.empty o = o
  simp [Output.append, Output.empty]

/-! ### One input -/

section Accept

variable {sh : Shell} {input : List Char}

theorem accept_of_blank (h : trimBlanks input = []) :
    sh.accept policy depth input =
      some (.empty, { sh with history := sh.history.add (String.ofList input) }) := by
  rw [accept, if_pos h]

theorem accept_of_exit (h : isExit (trimBlanks input) = true) :
    sh.accept policy depth input = some (.empty,
      { sh with history := sh.history.add (String.ofList input), finished := true }) := by
  have hne : trimBlanks input ≠ [] := by
    intro hnil
    rw [hnil] at h
    exact absurd h (by decide)
  rw [accept, if_neg hne, if_pos h]

theorem accept_of_line (hne : trimBlanks input ≠ []) (h : isExit (trimBlanks input) = false) :
    sh.accept policy depth input =
      (evaluateLine policy depth sh.interpreter (String.ofList (trimBlanks input)) sh.store).map
        fun o => (o.1.output (String.ofList (trimBlanks input)),
          { sh with history := sh.history.add (String.ofList input), store := o.2 }) := by
  rw [accept, if_neg hne, if_neg (by simp [h])]

end Accept

/-! ### All inputs -/

theorem acceptAll_of_finished {sh : Shell} (h : sh.finished = true) (inputs : List (List Char)) :
    sh.acceptAll policy depth inputs = some (.empty, sh) := by
  cases inputs with
  | nil => rfl
  | cons input inputs => rw [acceptAll, if_pos h]

theorem acceptAll_cons {sh : Shell} (h : sh.finished = false) (input : List Char)
    (inputs : List (List Char)) :
    sh.acceptAll policy depth (input :: inputs) =
      (sh.accept policy depth input).bind fun o =>
        (o.2.acceptAll policy depth inputs).map fun p => (o.1 ++ p.1, p.2) := by
  rw [acceptAll, if_neg (by simp [h])]
  rcases sh.accept policy depth input with - | ⟨o, sh'⟩
  · rfl
  · simp only [Option.bind_eq_bind, Option.bind_some]
    rcases sh'.acceptAll policy depth inputs with - | p <;> rfl

/-- What a shell has written, and whether it was told to exit. -/
def written (o : Output × Shell) : Output × Bool := (o.1, o.2.finished)

/-- **What the loop writes is what comes of the lines in turn**, and it is told to exit if some
input says so. -/
theorem map_acceptAll {sh : Shell} (hsh : sh.finished = false) (inputs : List (List Char)) :
    (sh.acceptAll policy depth inputs).map written =
      (evaluateInTurn policy depth sh.interpreter (evaluatedLines inputs) sh.store).map
        fun o => (transcript o.1, saysExit inputs) := by
  induction inputs generalizing sh with
  | nil => simp [acceptAll, evaluatedLines, evaluateInTurn, transcript, saysExit, written, hsh]
  | cons input inputs ih =>
    -- what one input writes comes before what the others write
    have hnext : ∀ (o : Output) (sh' : Shell), sh'.finished = false →
        ((sh'.acceptAll policy depth inputs).map fun p => (o ++ p.1, p.2)).map written =
          (evaluateInTurn policy depth sh'.interpreter (evaluatedLines inputs) sh'.store).map
            fun p => (o ++ transcript p.1, saysExit inputs) := by
      intro o sh' hsh'
      have hmap := congrArg (Option.map fun q : Output × Bool => (o ++ q.1, q.2)) (ih hsh')
      rw [Option.map_map, Option.map_map] at hmap
      rw [Option.map_map]
      exact hmap
    rw [acceptAll_cons hsh]
    by_cases hblank : trimBlanks input = []
    · obtain ⟨hlines, hexit⟩ := evaluatedLines_of_blank inputs hblank
      rw [accept_of_blank hblank, Option.bind_some, hlines, hexit]
      refine (hnext .empty { sh with history := sh.history.add (String.ofList input) } hsh).trans ?_
      simp only [output_empty_append]
    by_cases hexit : isExit (trimBlanks input) = true
    · obtain ⟨hlines, hsays⟩ := evaluatedLines_of_exit inputs hexit
      rw [accept_of_exit hexit, Option.bind_some, acceptAll_of_finished rfl, hlines, hsays]
      simp [evaluateInTurn, transcript, written, output_empty_append]
    · have hexit := Bool.eq_false_iff.mpr hexit
      obtain ⟨hlines, hsays⟩ := evaluatedLines_of_line inputs hblank hexit
      rw [accept_of_line hblank hexit, hlines, hsays, evaluateInTurn_cons]
      rcases evaluateLine policy depth sh.interpreter _ sh.store with - | ⟨r, t⟩
      · rfl
      · rw [Option.map_some, Option.bind_some, Option.bind_some]
        refine (hnext (r.output (String.ofList (trimBlanks input)))
          { sh with history := sh.history.add (String.ofList input), store := t } hsh).trans ?_
        rw [Option.map_map]
        rfl

/-- What is written at the end, if the shell was told to exit or if it was not. -/
def closing (exited : Bool) : Output := if exited then .empty else ⟨farewell, ""⟩

/-- **What a run writes** is what comes of the lines of its inputs in turn, starting with a new
interpreter, and a farewell unless it was told to exit. -/
theorem map_fst_run (policy : FramePolicy) (depth : Nat) (history : History) (text : String) :
    (run policy depth history text).map Prod.fst =
      (evaluateInTurn policy depth (Interpreter.new .empty).1 (evaluatedLines (inputBlocks text))
        (Interpreter.new .empty).2).map
          fun o => transcript o.1 ++ closing (saysExit (inputBlocks text)) := by
  have hall : ((new history).acceptAll policy depth (inputBlocks text)).map written =
      (evaluateInTurn policy depth (Interpreter.new .empty).1 (evaluatedLines (inputBlocks text))
        (Interpreter.new .empty).2).map
          fun o => (transcript o.1, saysExit (inputBlocks text)) := map_acceptAll rfl _
  have hclosed := congrArg (Option.map fun q : Output × Bool => q.1 ++ closing q.2) hall
  rw [Option.map_map, Option.map_map] at hclosed
  refine Eq.trans ?_ hclosed
  rw [run]
  rcases (new history).acceptAll policy depth (inputBlocks text) with - | ⟨o, sh⟩ <;> rfl

end Shell

/-! ### What can go wrong -/

section Failures

variable {policy : FramePolicy} {depth : Nat} {i : Interpreter} {s t : Store}

/-- Every line is evaluated, failures or not. -/
theorem map_fst_of_evaluateInTurn {lines : List String} {rs : List (String × LineResult)}
    (h : evaluateInTurn policy depth i lines s = some (rs, t)) :
    rs.map Prod.fst = lines ∧
      ∀ p ∈ rs, ∃ u u', evaluateLine policy depth i p.1 u = some (p.2, u') := by
  induction lines generalizing s rs with
  | nil =>
    obtain ⟨rfl, rfl⟩ := Prod.mk.inj (Option.some.inj h)
    exact ⟨rfl, fun p hp => absurd hp List.not_mem_nil⟩
  | cons line lines ih =>
    rw [evaluateInTurn_cons] at h
    obtain ⟨⟨r, u⟩, hline, h⟩ := Option.bind_eq_some_iff.mp h
    obtain ⟨⟨rs', t'⟩, hrest, h⟩ := Option.map_eq_some_iff.mp h
    obtain ⟨rfl, rfl⟩ := Prod.mk.inj h
    obtain ⟨hlines, hall⟩ := ih hrest
    exact ⟨congrArg (line :: ·) hlines, List.forall_mem_cons.mpr ⟨⟨s, u, hline⟩, hall⟩⟩

/-- An expression that has been read does not fail to be read. -/
theorem failure_of_evaluateEach {ds : List Datum} {r : LineResult}
    (h : evaluateEach policy depth i ds s = some (r, t)) (e : ReadError) :
    r.failure ≠ some (.read e) := by
  induction ds generalizing s r with
  | nil =>
    obtain ⟨rfl, -⟩ := Prod.mk.inj (Option.some.inj h)
    exact nofun
  | cons d ds ih =>
    rw [evaluateEach, Interpreter.evaluate, Action.mapError] at h
    rcases hfirst : eval policy depth d i.root s with - | ⟨e' | v, u⟩ <;> rw [hfirst] at h
    · cases h
    · obtain ⟨rfl, -⟩ := Prod.mk.inj (Option.some.inj h)
      exact nofun
    · rcases hrest : evaluateEach policy depth i ds u with - | ⟨r', u'⟩ <;>
        simp only [hrest, Option.some.injEq, Prod.mk.injEq, reduceCtorEq] at h
      obtain ⟨rfl, rfl⟩ := h
      -- the failure of the first part of a line is that of the line
      have hfailure : r'.failure ≠ some (.read e) := ih hrest
      exact hfailure

/-- A failure to read is the reader's. -/
theorem readProgram_of_failure {line : String} {r : LineResult}
    (h : evaluateLine policy depth i line s = some (r, t)) {e : ReadError}
    (he : r.failure = some (.read e)) : readProgram line = .error e := by
  rw [evaluateLine] at h
  rcases hread : readProgram line with e' | ds
  · rw [hread] at h
    obtain ⟨rfl, -⟩ := Prod.mk.inj (Option.some.inj h)
    obtain rfl : e' = e := by simpa using he
    rfl
  · rw [hread] at h
    exact absurd he (failure_of_evaluateEach h e)

end Failures

/-- **A complete input that cannot be read has a closing parenthesis too many.** -/
theorem exists_stray_of_complete {input : List Char} (hcomplete : waitsForMore input = false)
    (hne : trimBlanks input ≠ []) {e : ReadError}
    (h : readProgram (String.ofList (trimBlanks input)) = .error e) : ∃ span, e = .stray span := by
  cases e with
  | empty span =>
    have hblank : ¬∀ c ∈ (String.ofList (trimBlanks input)).toList, isBlank c = true := by
      rw [String.toList_ofList]
      exact not_blank_trimBlanks hne
    rcases readProgram_cases (String.ofList (trimBlanks input)) with ⟨hall, -⟩ |
      ⟨-, ⟨-, -, ds, hread⟩ | ⟨-, -, span, hread⟩ | ⟨-, span, hread⟩⟩
    · exact absurd hall hblank
    all_goals cases hread.symm.trans h
  | unclosed span =>
    have hopen := (readProgram_unclosed_iff _).mp ⟨span, h⟩
    rw [String.toList_ofList, ← waitsForMore_iff, waitsForMore_trimBlanks, hcomplete] at hopen
    cases hopen
  | stray span => exact ⟨span, rfl⟩

/-- The lines that are evaluated are inputs without the blanks around them. -/
theorem exists_input_of_mem_evaluatedLines {inputs : List (List Char)} {line : String}
    (h : line ∈ evaluatedLines inputs) :
    ∃ input ∈ inputs, trimBlanks input ≠ [] ∧ line = String.ofList (trimBlanks input) := by
  obtain ⟨trimmed, htrimmed, rfl⟩ := List.mem_map.mp h
  obtain ⟨htrimmed, hne⟩ := List.mem_filter.mp htrimmed
  obtain ⟨input, hinput, rfl⟩ := List.mem_map.mp ((List.takeWhile_sublist _).subset htrimmed)
  exact ⟨input, hinput, of_decide_eq_true hne, rfl⟩

/-- **A line of complete inputs is not short of a closing parenthesis, nor empty**, whenever it is
evaluated. -/
theorem failure_of_mem_evaluatedLines {inputs : List (List Char)} {line : String}
    (hinputs : ∀ input ∈ inputs, waitsForMore input = false) (hline : line ∈ evaluatedLines inputs)
    {policy : FramePolicy} {depth : Nat} {i : Interpreter} {s t : Store} {r : LineResult}
    (h : evaluateLine policy depth i line s = some (r, t)) (span : Span) :
    r.failure ≠ some (.read (.unclosed span)) ∧ r.failure ≠ some (.read (.empty span)) := by
  obtain ⟨input, hinput, hne, rfl⟩ := exists_input_of_mem_evaluatedLines hline
  have hstray : ∀ e, r.failure = some (.read e) → ∃ span, e = .stray span := fun e he =>
    exists_stray_of_complete (hinputs input hinput) hne (readProgram_of_failure h he)
  constructor
  · intro he
    obtain ⟨_, he⟩ := hstray _ he
    cases he
  · intro he
    obtain ⟨_, he⟩ := hstray _ he
    cases he

/-- **The shell takes blocks of whole lines, one after the other.** Every text is split into
blocks of lines, in order and without a gap, and at most an unfinished block at the end is
dropped. Without backspaces the input of a block is the text of its lines, up to the last line
end. What a run of the shell writes is what comes of the inputs up to the first `exit`, those
that are blank left out: each is evaluated in the store that the inputs before it have left,
also if they failed. None of them fails for a list that is not closed, or for being empty,
in whatever store it is evaluated, and also if the evaluation of a later one does not end. -/
theorem shell_takes_blocks_in_turn (policy : FramePolicy) (depth : Nat) (history : History)
    (text : String) :
    ∃ groups leftover, SplitsInto text groups leftover ∧
      (∀ lines, backspace ∉ lines.flatten → blockText lines = (splitLineEnd lines.flatten).1) ∧
      (Shell.run policy depth history text).map Prod.fst =
        (evaluateInTurn policy depth (Interpreter.new .empty).1
          (evaluatedLines (groups.map blockText)) (Interpreter.new .empty).2).map
            (fun o => transcript o.1 ++ Shell.closing (saysExit (groups.map blockText))) ∧
      (∀ line ∈ evaluatedLines (groups.map blockText), ∀ depth i s r t,
        evaluateLine policy depth i line s = some (r, t) → ∀ span,
          r.failure ≠ some (.read (.unclosed span)) ∧ r.failure ≠ some (.read (.empty span))) ∧
      ∀ rs t, evaluateInTurn policy depth (Interpreter.new .empty).1
          (evaluatedLines (groups.map blockText)) (Interpreter.new .empty).2 = some (rs, t) →
        rs.map Prod.fst = evaluatedLines (groups.map blockText) ∧
        ∀ p ∈ rs, ∀ span, p.2.failure ≠ some (.read (.unclosed span)) ∧
          p.2.failure ≠ some (.read (.empty span)) := by
  obtain ⟨groups, leftover, hsplit⟩ := exists_splitsInto text
  have hcomplete : ∀ input ∈ groups.map blockText, waitsForMore input = false :=
    List.forall_mem_map.mpr fun g hg => (hsplit.isBlock g hg).complete
  refine ⟨groups, leftover, hsplit, fun lines => blockText_of_notMem, ?_,
    fun line hline depth i s r t h => failure_of_mem_evaluatedLines hcomplete hline h,
    fun rs t h => ?_⟩
  · rw [Shell.map_fst_run, hsplit.inputs_eq]
  obtain ⟨hlines, hall⟩ := map_fst_of_evaluateInTurn h
  refine ⟨hlines, fun p hp => ?_⟩
  obtain ⟨u, u', hline⟩ := hall p hp
  have hmem : p.1 ∈ evaluatedLines (groups.map blockText) := by
    rw [← hlines]
    exact List.mem_map_of_mem hp
  exact failure_of_mem_evaluatedLines hcomplete hmem hline

/-- A list on two lines, a closing parenthesis too many, a blank line and `Exit`: the first two
inputs fail, the first of them when it is evaluated and the second when it is read, and what
follows the fourth is not looked at. -/
theorem shell_goes_on_after_failures :
    let text := "(a\r\nb)\n)\n\n Exit\nc\n("
    let rs : List (String × LineResult) :=
      [("(a\r\nb)", ⟨[], some (.eval (.unbound "a" ⟨1, 2⟩))⟩),
        (")", ⟨[], some (.read (.stray ⟨0, 1⟩))⟩)]
    (∃ groups leftover, SplitsInto text groups leftover ∧
      groups.map blockText =
        ["(a\r\nb)".toList, ")".toList, [], " Exit".toList, "c".toList]) ∧
      (Shell.run .clearFinished 3 .empty text).map Prod.fst = some (transcript rs ++ .empty) := by
  intro text rs
  let i := (Interpreter.new .empty).1
  let s := (Interpreter.new .empty).2
  have hinputs : inputBlocks text =
      ["(a\r\nb)".toList, ")".toList, [], " Exit".toList, "c".toList] := by
    unfold text
    cbv
  have hlines : evaluatedLines (inputBlocks text) = ["(a\r\nb)", ")"] := by
    rw [hinputs]
    cbv
  have hexit : saysExit (inputBlocks text) = true := by
    rw [hinputs]
    cbv
  have htokens : Token.scan 0 "(a\r\nb)".toList = [⟨.opening, ⟨0, 1⟩⟩, ⟨.atom "a", ⟨1, 2⟩⟩,
      ⟨.atom "b", ⟨4, 5⟩⟩, ⟨.closing, ⟨5, 6⟩⟩] := by
    cbv
  have hread : readProgram "(a\r\nb)" =
      .ok [.list [.symbol "a" ⟨1, 2⟩, .symbol "b" ⟨4, 5⟩] ⟨0, 6⟩] := by
    rw [readProgram_of_scan htokens]
    cbv
  have hfirst : evaluateLine .clearFinished 3 i "(a\r\nb)" s =
      some (⟨[], some (.eval (.unbound "a" ⟨1, 2⟩))⟩, s) := by
    rw [evaluateLine, hread]
    unfold i s
    cbv
  have hsecond : evaluateLine .clearFinished 3 i ")" s =
      some (⟨[], some (.read (.stray ⟨0, 1⟩))⟩, s) := by
    have hstray : readProgram ")" = .error (.stray ⟨0, 1⟩) := by cbv
    rw [evaluateLine, hstray]
  have hturn : evaluateInTurn .clearFinished 3 i ["(a\r\nb)", ")"] s = some (rs, s) := by
    rw [evaluateInTurn_cons, hfirst, Option.bind_some, evaluateInTurn_cons, hsecond]
    rfl
  obtain ⟨groups, leftover, hsplit, -, hrun, -⟩ :=
    shell_takes_blocks_in_turn .clearFinished 3 .empty text
  refine ⟨⟨groups, leftover, hsplit, hsplit.inputs_eq.symm.trans hinputs⟩, ?_⟩
  rw [hrun, ← hsplit.inputs_eq, hlines, hexit, hturn]
  rfl

end SmallLisp
