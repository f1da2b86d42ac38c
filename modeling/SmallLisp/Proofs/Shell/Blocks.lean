import Mathlib.Data.List.Induction
import SmallLisp.Shell.Input

/-!
# Blocks of lines

Input is read line by line, and lines are put together until the input is complete. So the
inputs are blocks of lines that follow one another: no line is left out, none is read twice,
and at most the last lines are dropped, if they do not complete an input
(`SmallLisp.exists_splitsInto`).

A block ends as soon as it can. What is read of all its lines is complete, and what is read of
the first few of them waits for more (`SmallLisp.IsBlock`). What is read of lines is the text
of the lines up to the line end of the last one, if no backspace is typed in them
(`SmallLisp.blockText_of_notMem`).
-/

namespace SmallLisp

/-! ### Lines -/

/-- **Lines of a text**: each ends with a line feed and has no other one, but the last of them
may have none. -/
inductive Lines : List (List Char) → Prop
  | nil : Lines []
  | last {line : List Char} (hne : line ≠ []) (hfeed : '\n' ∉ line) : Lines [line]
  | cons {line : List Char} {lines : List (List Char)} (hfeed : '\n' ∉ line) (h : Lines lines) :
    Lines ((line ++ ['\n']) :: lines)

theorem lines_rawLines {line : List Char} (hline : '\n' ∉ line) (cs : List Char) :
    Lines (rawLines line cs) := by
  fun_induction rawLines line cs with
  | case1 => exact .nil
  | case2 line hne =>
    refine .last (fun hnil => hne (List.reverse_eq_nil_iff.mp hnil)) fun hmem => ?_
    exact hline (List.mem_reverse.mp hmem)
  | case3 line cs ih =>
    rw [List.reverse_cons]
    exact .cons (fun hmem => hline (List.mem_reverse.mp hmem)) (ih List.not_mem_nil)
  | case4 line c cs hc ih =>
    refine ih fun hmem => ?_
    rcases List.mem_cons.mp hmem with h | h
    · exact hc h.symm
    · exact hline h

/-! ### What is read of lines -/

/-- What a further line makes of the input read so far and of the line end that was taken off
it: the line end is put back, and that of the new line is taken off. -/
def typeLine (typed : List Char × List Char) (line : List Char) : List Char × List Char :=
  let parts := splitLineEnd (typed.1 ++ typed.2 ++ line)
  (applyBackspaces parts.1, parts.2)

/-- What is read of lines, and the line end at the end of them. -/
def typeLines (lines : List (List Char)) : List Char × List Char := lines.foldl typeLine ([], [])

/-- **The input that is read of lines.** -/
def blockText (lines : List (List Char)) : List Char := (typeLines lines).1

theorem typeLines_concat (lines : List (List Char)) (line : List Char) :
    typeLines (lines ++ [line]) = typeLine (typeLines lines) line := by
  rw [typeLines, List.foldl_append, ← typeLines, List.foldl_cons, List.foldl_nil]

/-- Whether a further line completes an input is decided on all that is read then. -/
theorem addLine_typeLines (lines : List (List Char)) (line : List Char) :
    addLine ((typeLines lines).1 ++ (typeLines lines).2) line =
      if waitsForMore (blockText (lines ++ [line])) then
        .waiting ((typeLines (lines ++ [line])).1 ++ (typeLines (lines ++ [line])).2)
      else .complete (blockText (lines ++ [line])) := by
  rw [blockText, typeLines_concat]
  rfl

theorem typeLines_of_notMem {lines : List (List Char)} (h : backspace ∉ lines.flatten) :
    typeLines lines = splitLineEnd lines.flatten := by
  induction lines using List.reverseRecOn with
  | nil => rfl
  | append_singleton lines line ih =>
    rw [List.flatten_append, List.flatten_singleton] at h ⊢
    rw [typeLines_concat, ih fun hmem => h (List.mem_append_left _ hmem), typeLine,
      splitLineEnd_append]
    have hbody : backspace ∉ (splitLineEnd (lines.flatten ++ line)).1 := by
      intro hmem
      rw [← splitLineEnd_append (lines.flatten ++ line)] at h
      exact h (List.mem_append_left _ hmem)
    rw [applyBackspaces_of_notMem hbody]

/-- **Without backspaces the input is the text of the lines**, up to the line end of the last
one. -/
theorem blockText_of_notMem {lines : List (List Char)} (h : backspace ∉ lines.flatten) :
    blockText lines = (splitLineEnd lines.flatten).1 :=
  congrArg Prod.fst (typeLines_of_notMem h)

/-! ### Blocks -/

/-- **Lines that do not complete an input**: whatever is read of them waits for more. -/
def Unfinished (lines : List (List Char)) : Prop :=
  ∀ first, first <+: lines → first ≠ [] → waitsForMore (blockText first) = true

/-- **Lines that complete an input**, and do so with the last line only. -/
structure IsBlock (lines : List (List Char)) : Prop where
  ne_nil : lines ≠ []
  complete : waitsForMore (blockText lines) = false
  waiting : ∀ first, first <+: lines → first ≠ [] → first ≠ lines →
    waitsForMore (blockText first) = true

theorem unfinished_nil : Unfinished [] := fun _ hfirst hne => absurd (List.prefix_nil.mp hfirst) hne

section Line

variable {lines : List (List Char)} {line : List Char}

theorem Unfinished.concat (h : Unfinished lines)
    (hline : waitsForMore (blockText (lines ++ [line])) = true) :
    Unfinished (lines ++ [line]) := by
  intro first hfirst hne
  rcases List.prefix_concat_iff.mp hfirst with rfl | hfirst
  · exact hline
  · exact h first hfirst hne

theorem Unfinished.isBlock (h : Unfinished lines)
    (hline : waitsForMore (blockText (lines ++ [line])) = false) : IsBlock (lines ++ [line]) where
  ne_nil := by simp
  complete := hline
  waiting first hfirst hne hproper := by
    rcases List.prefix_concat_iff.mp hfirst with rfl | hfirst
    · exact absurd rfl hproper
    · exact h first hfirst hne

end Line

/-- **How lines are put together**, if some of them have been read already and wait for more:
into blocks, with lines left over that do not complete an input. -/
theorem exists_blocks {before : List (List Char)} (hbefore : Unfinished before)
    (lines : List (List Char)) :
    ∃ (groups : List (List (List Char))) (leftover : List (List Char)),
      before ++ lines = groups.flatten ++ leftover ∧
      blocksFrom ((typeLines before).1 ++ (typeLines before).2) lines = groups.map blockText ∧
      (∀ g ∈ groups, IsBlock g) ∧ Unfinished leftover := by
  induction lines generalizing before with
  | nil => exact ⟨[], before, by simp, rfl, by simp, hbefore⟩
  | cons line lines ih =>
    rw [blocksFrom, addLine_typeLines]
    by_cases hwaits : waitsForMore (blockText (before ++ [line])) = true
    · rw [if_pos hwaits]
      obtain ⟨groups, leftover, hlines, hblocks, hgroups, hleftover⟩ := ih (hbefore.concat hwaits)
      rw [List.append_cons]
      exact ⟨groups, leftover, hlines, hblocks, hgroups, hleftover⟩
    · rw [if_neg hwaits]
      -- the block is complete, and the next one begins with nothing read
      obtain ⟨groups, leftover, hlines, hblocks, hgroups, hleftover⟩ := ih unfinished_nil
      have hblock := hbefore.isBlock (Bool.eq_false_iff.mpr hwaits)
      refine ⟨(before ++ [line]) :: groups, leftover, ?_, ?_, ?_, hleftover⟩
      · rw [List.nil_append] at hlines
        rw [List.flatten_cons, List.append_assoc _ groups.flatten, ← hlines, List.append_cons]
      · exact congrArg (_ :: ·) hblocks
      · exact List.forall_mem_cons.mpr ⟨hblock, hgroups⟩

/-- **A text is split into blocks of lines and lines left over**: these are all its lines in
order, and the blocks make the inputs. -/
structure SplitsInto (text : String) (groups : List (List (List Char)))
    (leftover : List (List Char)) : Prop where
  lines : Lines (groups.flatten ++ leftover)
  flatten_eq : (groups.flatten ++ leftover).flatten = text.toList
  inputs_eq : inputBlocks text = groups.map blockText
  isBlock : ∀ g ∈ groups, IsBlock g
  unfinished : Unfinished leftover

theorem exists_splitsInto (text : String) : ∃ groups leftover, SplitsInto text groups leftover := by
  obtain ⟨groups, leftover, hlines, hblocks, hgroups, hleftover⟩ :=
    exists_blocks unfinished_nil (rawLines [] text.toList)
  rw [List.nil_append] at hlines
  refine ⟨groups, leftover, ?_, ?_, hblocks, hgroups, hleftover⟩
  · rw [← hlines]
    exact lines_rawLines List.not_mem_nil text.toList
  · rw [← hlines, flatten_rawLines, List.reverse_nil, List.nil_append]

end SmallLisp
