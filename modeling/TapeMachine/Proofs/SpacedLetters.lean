import TapeMachine.Proofs.NormalLine

namespace TapeMachine

namespace Text

/-- No code point is in both sets. -/
def CodeRanges.apart (ranges others : CodeRanges) : Bool :=
  ranges.all fun range => others.all fun other => range.2.blt other.1 || other.2.blt range.1

theorem CodeRanges.contains_eq_false_of_apart {ranges others : CodeRanges} (apart : ranges.apart others = true)
    {c : Char} (within : ranges.contains c = true) : others.contains c = false := by
  by_contra shared
  rw [Bool.not_eq_false] at shared
  obtain ⟨range, among, here⟩ := List.any_eq_true.mp within
  obtain ⟨other, amongOthers, there⟩ := List.any_eq_true.mp shared
  have distance := List.all_eq_true.mp (List.all_eq_true.mp apart range among) other amongOthers
  simp only [Bool.or_eq_true, Bool.and_eq_true, decide_eq_true_eq, Nat.blt_eq] at here there distance
  omega

theorem whitespaceRanges_apart :
    whitespaceRanges.apart caseIgnorableRanges = true ∧ whitespaceRanges.apart casedRanges = true ∧
      whitespaceRanges.apart (caseRuns.map fun run => (run.first, run.last)) = true := by
  decide +kernel

/-- White space has no other small form. -/
theorem isSmall_of_isWhitespace {white : Char} (isWhite : isWhitespace white = true) : IsSmall white := by
  refine isSmall_of_not_covers ?_ fun run listed => ?_
  · rintro rfl
    exact absurd isWhite (by decide)
  · by_contra capital
    obtain ⟨lower, upper, _⟩ := CaseRun.covers_iff.mp (by simpa using capital)
    have among : (run.first, run.last) ∈ caseRuns.map fun run => (run.first, run.last) := List.mem_map_of_mem listed
    have outside := CodeRanges.contains_eq_false_of_apart whitespaceRanges_apart.2.2 isWhite
    rw [CodeRanges.contains, List.any_eq_false] at outside
    exact outside _ among (by simp [lower, upper])

section

variable {white : Char} (isWhite : isWhitespace white = true)

include isWhite

/-- White space is not case-ignorable and has no case, so nothing beyond it is looked at. -/
theorem meetsCased_append_white (text rest : List Char) : meetsCased (text ++ white :: rest) = meetsCased text := by
  induction text with
  | nil =>
    have stops : isCaseIgnorable white = false :=
      CodeRanges.contains_eq_false_of_apart whitespaceRanges_apart.1 isWhite
    have caseless : isCased white = false :=
      CodeRanges.contains_eq_false_of_apart whitespaceRanges_apart.2.1 isWhite
    simp [meetsCased, stops, caseless]
  | cons c text ih =>
    unfold meetsCased at ih ⊢
    rw [List.cons_append, List.dropWhile_cons, List.dropWhile_cons]
    split
    · exact ih
    · rfl

theorem lowerAmid_append_white (before : List Char) (c : Char) (after rest : List Char) :
    lowerAmid before c (after ++ white :: rest) = lowerAmid before c after := by
  simp only [lowerAmid, lowerSigma, meetsCased_append_white isWhite]

theorem lowerAmid_white_append (before rest : List Char) (c : Char) (after : List Char) :
    lowerAmid (before ++ white :: rest) c after = lowerAmid before c after := by
  simp only [lowerAmid, lowerSigma, meetsCased_append_white isWhite]

theorem lowerAfter_append_white (before rest text : List Char) :
    lowerAfter (before ++ white :: rest) text = lowerAfter before text := by
  induction text generalizing before with
  | nil => rfl
  | cons c after ih =>
    rw [lowerAfter_cons, lowerAfter_cons, lowerAmid_white_append isWhite, ← List.cons_append, ih]

theorem lowerAfter_white_cons (before rest : List Char) : lowerAfter before (white :: rest) = white :: lower rest := by
  have forgotten := lowerAfter_append_white isWhite [] before rest
  rw [lowerAfter_cons, (isSmall_of_isWhitespace isWhite).lowerAmid_eq]
  exact congrArg (white :: ·) forgotten

theorem lowerAfter_word_append (before word rest : List Char) :
    lowerAfter before (word ++ white :: rest) = lowerAfter before word ++ white :: lower rest := by
  induction word generalizing before with
  | nil => exact lowerAfter_white_cons isWhite before rest
  | cons c word ih =>
    rw [List.cons_append, lowerAfter_cons, lowerAfter_cons, lowerAmid_append_white isWhite, ih, List.append_assoc]

/-- The letters on one side of white space do not bear on those of the other side. -/
theorem lower_append_white (word rest : List Char) :
    lower (word ++ white :: rest) = lower word ++ white :: lower rest :=
  lowerAfter_word_append isWhite [] word rest

theorem lower_intercalate (words : List (List Char)) :
    lower ([white].intercalate words) = [white].intercalate (words.map lower) := by
  induction words with
  | nil => rfl
  | cons word words ih =>
    cases words with
    | nil => simp
    | cons next words =>
      rw [List.intercalate_cons_cons, List.append_assoc, List.singleton_append, lower_append_white isWhite, ih]
      simp only [List.map_cons, List.intercalate_cons_cons, List.append_assoc, List.singleton_append]

theorem not_mem_lower {word : List Char} (unbroken : white ∉ word) : white ∉ lower word :=
  fun member => unbroken (mem_of_isWhitespace_of_mem_lowerAfter isWhite member)

/-- To cut a text at white space of one kind and to make its letters small can be done in either order. -/
theorem splitOn_lower (text : List Char) : (lower text).splitOn white = (text.splitOn white).map lower := by
  have pieces : text = [white].intercalate (text.splitOn white) := (List.intercalate_splitOn white).symm
  have unbroken : ∀ word ∈ (text.splitOn white).map lower, white ∉ word := by
    intro word member
    obtain ⟨piece, cut, rfl⟩ := List.mem_map.mp member
    exact not_mem_lower isWhite (not_mem_of_mem_splitOn cut)
  calc (lower text).splitOn white
      = ([white].intercalate ((text.splitOn white).map lower)).splitOn white := by
        rw [← lower_intercalate isWhite, ← pieces]
    _ = (text.splitOn white).map lower := List.splitOn_intercalate white unbroken (by simp)

end

end Text

open Text

/-- The tokens of a line are made small one by one. -/
theorem lineTokens_eq_map_lower (line : List Char) :
    lineTokens line = ((collapseGap (trim line)).splitOn ' ').map lower :=
  splitOn_lower (by decide) _

end TapeMachine
