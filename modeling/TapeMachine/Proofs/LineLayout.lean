import TapeMachine.Proofs.NormalLine

namespace TapeMachine.Text

/-- Tokens on a line: the first of them, and each further one with the width of the gap before it. -/
inductive LaidOut : List Char → List (Nat × List Char) → List Char → Prop
  | last {token} : IsToken token → LaidOut token [] token
  | next {token width following steps rest} : IsToken token → 0 < width → LaidOut following steps rest →
      LaidOut token ((width, following) :: steps) (token ++ gap width ++ rest)

theorem isToken_singleton {c : Char} (visible : c ≠ ' ') : IsToken [c] :=
  ⟨List.cons_ne_nil c [], by simpa [eq_comm] using visible⟩

theorem IsToken.cons {token : List Char} (isToken : IsToken token) {c : Char} (visible : c ≠ ' ') :
    IsToken (c :: token) :=
  ⟨List.cons_ne_nil c token, by simpa [eq_comm] using And.intro visible isToken.2⟩

/-- Where the first wide gap is closed. -/
def closeFirst : List (Nat × List Char) → List (Nat × List Char)
  | [] => []
  | (width, token) :: steps => if 2 ≤ width then (1, token) :: steps else (width, token) :: closeFirst steps

/-- What the steps are cut into at the spaces: each further space of a gap leaves an empty piece. -/
def pieces (steps : List (Nat × List Char)) : List (List Char) :=
  steps.flatMap fun step => List.replicate (step.1 - 1) [] ++ [step.2]

theorem map_snd_closeFirst (steps : List (Nat × List Char)) : (closeFirst steps).map (·.2) = steps.map (·.2) := by
  induction steps with
  | nil => rfl
  | cons step steps ih =>
    unfold closeFirst
    split
    · rfl
    · exact congrArg (step.2 :: ·) ih

theorem countP_wide_eq_zero_iff {steps : List (Nat × List Char)} (positive : ∀ step ∈ steps, 0 < step.1) :
    (steps.map (·.1)).countP (2 ≤ ·) = 0 ↔ ∀ step ∈ steps, step.1 = 1 := by
  rw [List.countP_eq_zero, List.forall_mem_map]
  refine forall₂_congr fun step member => ?_
  have apart := positive step member
  rw [decide_eq_true_eq]
  omega

/-- No gap is wide after the first wide one is closed, unless there was another one. -/
theorem narrow_closeFirst_iff {steps : List (Nat × List Char)} (positive : ∀ step ∈ steps, 0 < step.1) :
    (∀ step ∈ closeFirst steps, step.1 = 1) ↔ (steps.map (·.1)).countP (2 ≤ ·) ≤ 1 := by
  induction steps with
  | nil => simp [closeFirst]
  | cons step steps ih =>
    obtain ⟨width, token⟩ := step
    obtain ⟨apart, positive⟩ := List.forall_mem_cons.mp positive
    have others := countP_wide_eq_zero_iff positive
    rw [closeFirst, List.map_cons, List.countP_cons]
    by_cases opens : 2 ≤ width
    · rw [if_pos opens, List.forall_mem_cons, ← others]
      simp [opens]
    · have single : width = 1 := by omega
      rw [if_neg opens, List.forall_mem_cons, ih positive]
      simp [single]

theorem pieces_of_narrow {steps : List (Nat × List Char)} (narrow : ∀ step ∈ steps, step.1 = 1) :
    pieces steps = steps.map (·.2) := by
  induction steps with
  | nil => rfl
  | cons step steps ih =>
    obtain ⟨single, narrow⟩ := List.forall_mem_cons.mp narrow
    rw [List.map_cons, ← ih narrow, pieces, List.flatMap_cons, single]
    rfl

theorem pieces_eq_nil_iff {steps : List (Nat × List Char)} : pieces steps = [] ↔ steps = [] := by
  cases steps <;> simp [pieces]

/-- A piece with characters stands behind a single space, and an empty one within a wide gap. -/
theorem pieces_eq_cons {steps : List (Nat × List Char)} (positive : ∀ step ∈ steps, 0 < step.1 ∧ step.2 ≠ [])
    {piece : List Char} {others : List (List Char)} (cut : pieces steps = piece :: others) :
    (piece ≠ [] ∧ ∃ later, steps = (1, piece) :: later ∧ pieces later = others) ∨
      (piece = [] ∧ ∃ width token later, steps = (width + 2, token) :: later ∧
        List.replicate width [] ++ token :: pieces later = others) := by
  cases steps with
  | nil => cases cut
  | cons step later =>
    obtain ⟨width, token⟩ := step
    obtain ⟨⟨apart, nonempty⟩, _⟩ := List.forall_mem_cons.mp positive
    obtain ⟨more, rfl⟩ := Nat.exists_eq_add_one_of_ne_zero apart.ne'
    cases more with
    | zero =>
      obtain ⟨rfl, rfl⟩ := List.cons.inj cut
      exact Or.inl ⟨nonempty, later, rfl, rfl⟩
    | succ more =>
      rw [pieces, List.flatMap_cons, List.append_assoc] at cut
      obtain ⟨rfl, rfl⟩ := List.cons.inj cut
      exact Or.inr ⟨rfl, more, token, later, rfl, rfl⟩

theorem pieces_behind_space {steps : List (Nat × List Char)} (positive : ∀ step ∈ steps, 0 < step.1 ∧ step.2 ≠ [])
    {piece : List Char} {others : List (List Char)} (cut : pieces steps = piece :: others) (nonempty : piece ≠ []) :
    ∃ later, steps = (1, piece) :: later ∧ pieces later = others := by
  rcases pieces_eq_cons positive cut with ⟨_, found⟩ | ⟨empty, _⟩
  · exact found
  · exact absurd empty nonempty

theorem splitOn_gap (width : Nat) (rest : List Char) :
    (gap width ++ rest).splitOn ' ' = List.replicate width [] ++ rest.splitOn ' ' := by
  induction width with
  | zero => rfl
  | succ width ih =>
    change (' ' :: (gap width ++ rest)).splitOn ' ' = [] :: (List.replicate width [] ++ rest.splitOn ' ')
    rw [List.splitOn_cons_eq_if_modifyHead, if_pos (by decide), ih]

namespace LaidOut

variable {first text : List Char} {steps : List (Nat × List Char)}

theorem isToken (laid : LaidOut first steps text) : IsToken first := by
  cases laid with
  | last isToken => exact isToken
  | next isToken => exact isToken

theorem head? (laid : LaidOut first steps text) : text.head? ≠ some ' ' := by
  cases laid with
  | last isToken => simpa using isToken.head?_append []
  | next isToken =>
    rw [List.append_assoc]
    exact isToken.head?_append _

theorem cons (laid : LaidOut first steps text) {c : Char} (visible : c ≠ ' ') :
    LaidOut (c :: first) steps (c :: text) := by
  cases laid with
  | last isToken => exact .last (isToken.cons visible)
  | next isToken apart laid => exact .next (isToken.cons visible) apart laid

theorem positive (laid : LaidOut first steps text) : ∀ step ∈ steps, 0 < step.1 ∧ step.2 ≠ [] := by
  induction laid with
  | last => simp
  | next _ apart laid ih => exact List.forall_mem_cons.mpr ⟨⟨apart, laid.isToken.1⟩, ih⟩

/-- The text closes its first wide gap where the steps close theirs. -/
theorem collapseGap (laid : LaidOut first steps text) : LaidOut first (closeFirst steps) (collapseGap text) := by
  induction laid with
  | @last token isToken =>
    have whole : Text.collapseGap token = token := by
      simpa [Text.collapseGap] using collapseGap_append isToken.2 []
    rw [whole]
    exact .last isToken
  | @next token width following steps rest isToken apart laid ih =>
    rw [List.append_assoc, collapseGap_append isToken.2, closeFirst]
    obtain ⟨more, rfl⟩ := Nat.exists_eq_add_one_of_ne_zero apart.ne'
    cases more with
    | zero =>
      have narrow : Text.collapseGap (gap 1 ++ rest) = gap 1 ++ Text.collapseGap rest :=
        collapseGap_space laid.head?
      rw [Nat.zero_add, narrow, if_neg (by decide), ← List.append_assoc]
      exact .next isToken Nat.one_pos ih
    | succ more =>
      rw [collapseGap_gap more laid.head?, if_pos (by omega)]
      simpa [gap] using LaidOut.next isToken Nat.one_pos laid

theorem splitOn (laid : LaidOut first steps text) : text.splitOn ' ' = first :: pieces steps := by
  induction laid with
  | last isToken => exact List.splitOn_eq_singleton isToken.2
  | @next token width following steps rest isToken apart laid ih =>
    obtain ⟨more, rfl⟩ := Nat.exists_eq_add_one_of_ne_zero apart.ne'
    have cut : token ++ gap (more + 1) ++ rest = token ++ ' ' :: (gap more ++ rest) := List.append_assoc ..
    rw [cut, List.splitOn_append_cons_self_of_not_mem isToken.2, splitOn_gap, ih]
    simp [pieces]

end LaidOut

theorem exists_gap_laidOut {text : List Char} (visible : text.getLast? ≠ some ' ') (nonempty : text ≠ []) :
    ∃ width first steps rest, text = gap width ++ rest ∧ LaidOut first steps rest := by
  induction text with
  | nil => exact absurd rfl nonempty
  | cons c text ih =>
    by_cases single : text = []
    · subst single
      have bare : c ≠ ' ' := by simpa using visible
      exact ⟨0, [c], [], [c], rfl, .last (isToken_singleton bare)⟩
    · rw [List.getLast?_cons_of_ne_nil single] at visible
      obtain ⟨width, first, steps, rest, rfl, laid⟩ := ih visible single
      -- A space widens the gap in front. Another character joins the first token, or is a token before that gap.
      by_cases space : c = ' '
      · subst space
        exact ⟨width + 1, first, steps, rest, rfl, laid⟩
      · cases width with
        | zero => exact ⟨0, c :: first, steps, c :: rest, rfl, laid.cons space⟩
        | succ width =>
          exact ⟨0, [c], (width + 1, first) :: steps, c :: (gap (width + 1) ++ rest), rfl,
            .next (isToken_singleton space) (Nat.succ_pos width) laid⟩

theorem Trimmed.exists_laidOut {text : List Char} (trimmed : Trimmed text) (nonempty : text ≠ []) :
    ∃ first steps, LaidOut first steps text := by
  have visible : text.getLast? ≠ some ' ' := fun atLast => absurd (trimmed.last ' ' atLast) (by decide)
  obtain ⟨width, first, steps, rest, rfl, laid⟩ := exists_gap_laidOut visible nonempty
  cases width with
  | zero => exact ⟨first, steps, laid⟩
  | succ width => exact absurd (trimmed.head ' ' rfl) (by decide)

end TapeMachine.Text
