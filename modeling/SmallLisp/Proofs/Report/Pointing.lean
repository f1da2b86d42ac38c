import SmallLisp.Proofs.Faults
import SmallLisp.Proofs.Provenance
import SmallLisp.Proofs.Report.Place

/-!
# When a report points at the failing text

An error knows by its span which bytes of the text it is about, and the span of every error does
cut a piece out of the text that was run (`SmallLisp.exists_cuts_of_runAll`). A report takes the
same two numbers for positions of characters. Up to an offset there are as many characters as
bytes if every character takes one byte, and fewer if one of them takes more
(`SmallLisp.byteLength_eq_length_iff`); so the report points at the piece if no such character
stands in it or in front of it, and else it points further on, or nowhere
(`SmallLisp.report_points_at_error_iff`). If a list is not closed, the report gives the end of the
text for a position, and then the same goes for the whole text.
-/

namespace SmallLisp

/-! ### Bytes and characters -/

theorem length_le_byteLength (cs : List Char) : cs.length ≤ byteLength cs := by
  induction cs with
  | nil => exact Nat.le_refl 0
  | cons c cs ih =>
    have := Char.utf8Size_pos c
    rw [List.length_cons, byteLength_cons]
    omega

/-- **Bytes and characters are counted alike** only where every character takes one byte. -/
theorem byteLength_eq_length_iff {cs : List Char} :
    byteLength cs = cs.length ↔ ∀ c ∈ cs, c.utf8Size = 1 := by
  induction cs with
  | nil => simp
  | cons c cs ih =>
    have hc := Char.utf8Size_pos c
    have hcs := length_le_byteLength cs
    rw [List.forall_mem_cons, ← ih, List.length_cons, byteLength_cons]
    omega

/-! ### What is reported -/

/-- Whether an error is about a list that is not closed. -/
def Error.isUnclosed : Error → Bool
  | .read (.unclosed _) => true
  | _ => false

namespace Error

variable (e : Error) (text : String)

/-- **The numbers of a report are those of the error.** -/
theorem span_report : (e.report text).span = e.span := by
  rcases e with (_ | _ | _) | (_ | _ | _ | _) <;> rfl

theorem position_report :
    (e.report text).position = if e.isUnclosed then text.utf8ByteSize else e.span.start := by
  rcases e with (_ | _ | _) | (_ | _ | _ | _) <;> rfl

/-- **A report points at the failing text.** The piece of the text that the span of the error cuts
out, by its bytes, is the part that is underlined, by its characters; it is in the text; and the
line and the column that are given are those of its first character, or those of the end of the
text if a list is not closed. -/
def PointsAt : Prop :=
  ∃ before piece after : List Char, text.toList = before ++ piece ++ after ∧
    e.span = ⟨byteLength before, byteLength (before ++ piece)⟩ ∧
    (e.report text).span = ⟨before.length, (before ++ piece).length⟩ ∧
    (e.report text).isInside text.toList.length = true ∧
    ∃ line column,
      IsPlace text.toList (if e.isUnclosed then text.toList.length else before.length) line column ∧
      Report.place (SourceLine.ofChars text.toList) text.toList.length (e.report text).position =
        toString line ++ ":" ++ toString column

/-- The part of the text that has to be in characters of one byte. -/
def upTo : List Char :=
  if e.isUnclosed then text.toList else takeBytes e.span.stop text.toList

end Error

/-- Question marks are not a line and a column. -/
theorem le_of_place_eq {cs : List Char} {position line column : Nat}
    (h : Report.place (SourceLine.ofChars cs) cs.length position =
      toString line ++ ":" ++ toString column) : position ≤ cs.length := by
  by_contra hlt
  rw [Report.place, if_neg hlt] at h
  have hchars : '?' :: ":?".toList = Nat.toDigits 10 line ++ (":" ++ toString column).toList := by
    have hlist := congrArg String.toList h
    rwa [String.append_assoc, String.toList_append, Nat.toString_eq_repr, Nat.toList_repr] at hlist
  obtain ⟨c, ds, hds⟩ := List.exists_cons_of_ne_nil (@Nat.toDigits_ne_nil line 10)
  rw [hds] at hchars
  obtain ⟨rfl, -⟩ := List.cons.inj hchars
  have hdigit : '?'.isDigit = true :=
    Nat.isDigit_of_mem_toDigits (by decide) (by decide) (hds ▸ List.mem_cons_self)
  exact absurd hdigit (by decide)

/-! ### Errors of a text -/

theorem Span.Cuts.exists_toList {span : Span} {text piece : String} (h : span.Cuts text piece) :
    ∃ before after : List Char, text.toList = before ++ piece.toList ++ after ∧
      span = ⟨byteLength before, byteLength (before ++ piece.toList)⟩ := by
  obtain ⟨before, after, rfl, hstart, hstop⟩ := h
  refine ⟨before.toList, after.toList, by simp, ?_⟩
  rw [← String.toList_append, byteLength_toList, byteLength_toList, ← hstart, ← hstop]

/-- A text that cannot be read has an error at a piece of it. -/
theorem exists_cuts_of_readProgram {text : String} {e : ReadError}
    (h : readProgram text = .error e) : ∃ piece, e.span.Cuts text piece := by
  by_cases hblank : ∀ c ∈ text.toList, isBlank c = true
  · rw [readProgram_of_blank hblank] at h
    obtain rfl := Except.error.inj h
    exact ⟨text, "", "", by simp, rfl, by simp [ReadError.span]⟩
  · rw [readProgram_of_not_blank hblank] at h
    obtain ⟨t, ht, hspan⟩ := exists_token_of_readAll_error h
    rw [hspan]
    exact ⟨_, (cuts_of_mem_scan ht).2⟩

variable {policy : FramePolicy} {depth : Nat} {text : String} {e : Error} {t : Store}

/-- **The span of an error cuts a piece out of the text that was run.** -/
theorem exists_cuts_of_runAll
    (h : (Interpreter.new .empty).1.runAll policy depth text (Interpreter.new .empty).2 =
      some (.error e, t)) : ∃ piece, e.span.Cuts text piece := by
  cases e with
  | read e =>
    rcases hread : readProgram text with e' | ds
    · rw [Interpreter.runAll_of_error _ hread] at h
      obtain ⟨he, -⟩ := Prod.mk.inj (Option.some.inj h)
      cases he
      exact exists_cuts_of_readProgram hread
    · rw [Interpreter.runAll_of_ok _ hread, Action.mapError] at h
      -- no expression fails to be read
      split at h <;> cases h
  | eval e =>
    have hcovers : (Stock.ofSpans fun span => span.ComesFrom text).Covers text := by
      intro ds hread d hd n hn
      exact Stock.allows_ofSpans_iff.mpr ⟨ds, hread, d, hd, n, hn, rfl⟩
    have hanswers : Answers policy (Interpreter.new .empty).1 (Interpreter.new .empty).2
        (.runAll text) (.error (.eval e)) t := ⟨depth, h⟩
    have hmeets := Answers.meets .new hanswers (List.forall_mem_singleton.mpr hcovers)
    have hfrom : e.span.ComesFrom text := forall_answerSpans hmeets _ (List.mem_singleton.mpr rfl)
    obtain ⟨piece, -, hcuts⟩ := hfrom.within.exists_cuts
    exact ⟨piece, hcuts⟩

/-! ### The theorem -/

/-- **An error whose span cuts a piece out of the text is pointed at** if all characters up to the
end of the piece take one byte, or all of the text if a list is not closed. -/
theorem Error.pointsAt_iff {piece : String} (hcuts : e.span.Cuts text piece) :
    e.PointsAt text ↔ ∀ c ∈ e.upTo text, c.utf8Size = 1 := by
  constructor
  · rintro ⟨before, piece, after, htext, hspan, hlabel, -, line, column, -, hplace⟩
    rw [upTo]
    split
    · next hunclosed =>
      have hle := le_of_place_eq hplace
      rw [position_report, if_pos hunclosed, ← byteLength_toList] at hle
      exact byteLength_eq_length_iff.mp (Nat.le_antisymm hle (length_le_byteLength _))
    · rw [span_report, hspan] at hlabel
      rw [hspan, htext, takeBytes_append]
      exact byteLength_eq_length_iff.mp (Span.mk.inj hlabel).2
  · intro hall
    obtain ⟨before, after, htext, hspan⟩ := hcuts.exists_toList
    have hpart : ∀ c ∈ before ++ piece.toList, c.utf8Size = 1 := by
      rw [upTo, hspan, htext, takeBytes_append] at hall
      split at hall
      · exact fun c hc => hall c (List.mem_append_left _ hc)
      · exact hall
    have hstart := byteLength_eq_length_iff.mpr fun c hc => hpart c (List.mem_append_left _ hc)
    have hstop := byteLength_eq_length_iff.mpr hpart
    have hlength : text.toList.length = (before ++ piece.toList).length + after.length := by
      rw [htext, List.length_append]
    have hlabel : (e.report text).span = ⟨before.length, (before ++ piece.toList).length⟩ := by
      rw [span_report, hspan, hstart, hstop]
    have hposition : (e.report text).position =
        if e.isUnclosed then text.toList.length else before.length := by
      rw [position_report, hspan, hstart]
      split
      · next hunclosed =>
        rw [upTo, if_pos hunclosed] at hall
        rw [← byteLength_toList, byteLength_eq_length_iff.mpr hall]
      · rfl
    refine ⟨before, piece.toList, after, htext, hspan, hlabel, ?_, ?_⟩
    · rw [Report.isInside, hlabel, hlength, List.length_append]
      simp only [Bool.and_eq_true, Bool.or_eq_true, decide_eq_true_eq]
      omega
    · rw [hposition]
      refine exists_isPlace ?_
      rw [hlength, List.length_append]
      split <;> omega

/-- **When a report points at the failing text.** A new interpreter runs a text and fails. The
report on the error points at the text that the error is about if every character takes one byte
that stands there or in front of it, or anywhere in the text if a list is not closed; and it does
not otherwise. The end of the text, where the report of a list that is not closed stands, counts in
the last line also if that line has an end of its own: behind a parenthesis and a line feed it is
column 3 of line 1, and not the start of a second line (`SmallLisp.IsPlace`). -/
theorem report_points_at_error_iff (policy : FramePolicy) (depth : Nat) (text : String) (e : Error)
    (t : Store)
    (h : (Interpreter.new .empty).1.runAll policy depth text (Interpreter.new .empty).2 =
      some (.error e, t)) :
    e.PointsAt text ↔ ∀ c ∈ e.upTo text, c.utf8Size = 1 := by
  obtain ⟨piece, hcuts⟩ := exists_cuts_of_runAll h
  exact Error.pointsAt_iff hcuts

/-- `t`, and `(car y)` on a second line: the name `y` is unbound, and it is pointed at. -/
theorem unbound_name_on_second_line_is_pointed_at :
    let text := "t\n(car y)"
    let e : Error := .eval (.unbound "y" ⟨7, 8⟩)
    (∃ t, (Interpreter.new .empty).1.runAll .clearFinished 3 text (Interpreter.new .empty).2 =
      some (.error e, t)) ∧ e.PointsAt text := by
  intro text e
  let s := (Interpreter.new .empty).2
  have htokens : Token.scan 0 text.toList = [⟨.atom "t", ⟨0, 1⟩⟩, ⟨.opening, ⟨2, 3⟩⟩,
      ⟨.atom "car", ⟨3, 6⟩⟩, ⟨.atom "y", ⟨7, 8⟩⟩, ⟨.closing, ⟨8, 9⟩⟩] := by
    unfold text
    cbv
  have hread : readProgram text = .ok [.atom (.boolean true) ⟨0, 1⟩,
      .list [.symbol "car" ⟨3, 6⟩, .symbol "y" ⟨7, 8⟩] ⟨2, 9⟩] := by
    rw [readProgram_of_scan htokens]
    cbv
  have hrun : (Interpreter.new .empty).1.runAll .clearFinished 3 text s = some (.error e, s) := by
    rw [Interpreter.runAll_of_ok _ hread]
    unfold e s
    cbv
  have hbytes : byteLength (e.upTo text) = (e.upTo text).length := by
    unfold e text
    cbv
  exact ⟨⟨_, hrun⟩,
    (report_points_at_error_iff _ _ _ _ _ hrun).mpr (byteLength_eq_length_iff.mp hbytes)⟩

/-- `(list "é" x)`: the name `x` is unbound. It is the eleventh character and the twelfth byte, and
the report points at the parenthesis behind it. -/
theorem unbound_name_behind_accent_is_not_pointed_at :
    let text := "(list \"é\" x)"
    let e : Error := .eval (.unbound "x" ⟨11, 12⟩)
    (∃ t, (Interpreter.new .empty).1.runAll .clearFinished 3 text (Interpreter.new .empty).2 =
      some (.error e, t)) ∧ ¬e.PointsAt text := by
  intro text e
  let s := (Interpreter.new .empty).2
  have htokens : Token.scan 0 text.toList = [⟨.opening, ⟨0, 1⟩⟩, ⟨.atom "list", ⟨1, 5⟩⟩,
      ⟨.atom "\"é\"", ⟨6, 10⟩⟩, ⟨.atom "x", ⟨11, 12⟩⟩, ⟨.closing, ⟨12, 13⟩⟩] := by
    unfold text
    cbv
  have hread : readProgram text = .ok [.list [.symbol "list" ⟨1, 5⟩, .atom (.text "é") ⟨6, 10⟩,
      .symbol "x" ⟨11, 12⟩] ⟨0, 13⟩] := by
    rw [readProgram_of_scan htokens]
    cbv
  have hrun : (Interpreter.new .empty).1.runAll .clearFinished 3 text s = some (.error e, s) := by
    rw [Interpreter.runAll_of_ok _ hread]
    unfold e s
    cbv
  have hcuts : e.span.Cuts text "x" := ⟨"(list \"é\" ", ")", by decide, by decide, by decide⟩
  refine ⟨⟨_, hrun⟩, fun hpoints => ?_⟩
  have hall := (Error.pointsAt_iff hcuts).mp hpoints
  exact absurd (hall 'é' (by decide)) (by decide)

end SmallLisp
