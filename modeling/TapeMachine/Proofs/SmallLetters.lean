import Mathlib.Data.List.Basic
import Mathlib.Data.Nat.ModEq
import TapeMachine.Text.LowerCase
import TapeMachine.Text.Whitespace

namespace TapeMachine.Text

/-- A character that is its own small form. -/
def IsSmall (c : Char) : Prop := lowerChar c = [c]

namespace CaseRun

/-- Where the small letter of the capital at `code` stands. -/
def small (run : CaseRun) (code : Nat) : Nat := (code + run.shift).toNat

def avoids (run : CaseRun) (first last : Nat) : Bool :=
  (run.small run.last).blt first || last.blt (run.small run.first)

/-- No small letter of `run` is a capital of `other`: they lie apart, or the letters alternate. -/
def misses (run other : CaseRun) : Bool :=
  run.avoids other.first other.last ||
    (run.first == run.last || run.stride == other.stride) &&
      run.small run.first % other.stride != other.first % other.stride

theorem covers_iff {run : CaseRun} {c : Char} :
    run.covers c = true ↔ run.first ≤ c.toNat ∧ c.toNat ≤ run.last ∧ run.stride ∣ c.toNat - run.first := by
  simp [covers, Nat.dvd_iff_mod_eq_zero, and_assoc]

theorem small_mem_range {run : CaseRun} {c : Char} (covered : run.covers c = true) :
    run.small run.first ≤ run.small c.toNat ∧ run.small c.toNat ≤ run.small run.last := by
  obtain ⟨lower, upper, _⟩ := covers_iff.mp covered
  unfold small
  omega

theorem not_between_of_avoids {run : CaseRun} {c : Char} {first last : Nat} (covered : run.covers c = true)
    (avoids : run.avoids first last = true) : ¬ (first ≤ run.small c.toNat ∧ run.small c.toNat ≤ last) := by
  obtain ⟨lower, upper⟩ := small_mem_range covered
  simp only [CaseRun.avoids, Bool.or_eq_true, Nat.blt_eq] at avoids
  omega

/-- The small letters of a run keep the distances of its capitals. -/
theorem small_modEq {run : CaseRun} {c : Char} (covered : run.covers c = true)
    (grounded : 0 ≤ run.first + run.shift) : run.small c.toNat ≡ run.small run.first [MOD run.stride] := by
  obtain ⟨lower, _, multiple⟩ := covers_iff.mp covered
  have distance : run.small c.toNat = run.small run.first + (c.toNat - run.first) := by
    unfold small
    omega
  rw [distance]
  exact (Nat.modEq_zero_iff_dvd.mpr multiple).add_left _

theorem not_covers_of_misses {run other : CaseRun} {c d : Char} (covered : run.covers c = true)
    (grounded : 0 ≤ run.first + run.shift) (misses : run.misses other = true)
    (isSmall : d.toNat = run.small c.toNat) : other.covers d = false := by
  by_contra capital
  obtain ⟨lower, upper, multiple⟩ := covers_iff.mp (by simpa using capital)
  simp only [CaseRun.misses, Bool.or_eq_true, Bool.and_eq_true, beq_iff_eq, bne_iff_ne] at misses
  rcases misses with apart | ⟨alternate, phase⟩
  · exact not_between_of_avoids covered apart (by omega)
  · have inPhase : d.toNat ≡ other.first [MOD other.stride] :=
      ((Nat.modEq_iff_dvd' lower).mpr multiple).symm
    have ofRun : d.toNat ≡ run.small run.first [MOD other.stride] := by
      rw [isSmall]
      rcases alternate with single | stride
      · obtain ⟨first, last, _⟩ := covers_iff.mp covered
        rw [show c.toNat = run.first by omega]
      · rw [← stride]
        exact small_modEq covered grounded
    exact phase (ofRun.symm.trans inPhase)

end CaseRun

theorem caseRuns_grounded : ∀ run ∈ caseRuns, 0 ≤ run.first + run.shift ∧ run.small run.last < 0x110000 := by
  decide +kernel

/-- No small letter is a surrogate, the dotted capital I, or white. -/
theorem caseRuns_avoid : ∀ run ∈ caseRuns,
    ∀ range ∈ (0xD800, 0xDFFF) :: (0x130, 0x130) :: whitespaceRanges, run.avoids range.1 range.2 = true := by
  decide +kernel

theorem caseRuns_miss : (caseRuns.all fun run => caseRuns.all run.misses) = true := by
  decide +kernel

theorem toNat_ofNat_small {run : CaseRun} {c : Char} (listed : run ∈ caseRuns) (covered : run.covers c = true) :
    (Char.ofNat (run.small c.toNat)).toNat = run.small c.toNat := by
  have upper := (CaseRun.small_mem_range covered).2
  have bound := (caseRuns_grounded run listed).2
  have scalar := CaseRun.not_between_of_avoids covered (caseRuns_avoid run listed (0xD800, 0xDFFF) (by simp))
  have valid : (run.small c.toNat).isValidChar := by
    unfold Nat.isValidChar
    omega
  rw [Char.ofNat, dif_pos valid]
  rfl

/-- A small form is the character itself, a dotted i, or a letter that a run of capitals leads to. -/
theorem lowerChar_cases (c : Char) :
    c ≠ 'İ' ∧ (∀ run ∈ caseRuns, run.covers c = false) ∧ IsSmall c ∨ c = 'İ' ∧ lowerChar c = ['i', '\u0307'] ∨
      ∃ run ∈ caseRuns, ∃ d : Char, run.covers c = true ∧ d.toNat = run.small c.toNat ∧ lowerChar c = [d] := by
  unfold IsSmall lowerChar
  split
  · exact Or.inr (Or.inl ⟨‹_›, rfl⟩)
  · rename_i undotted
    cases found : caseRuns.find? (·.covers c) with
    | none => exact Or.inl ⟨undotted, by simpa using found, rfl⟩
    | some run =>
      have listed := List.mem_of_find?_eq_some found
      have covered : run.covers c = true := by simpa using List.find?_some found
      exact Or.inr (Or.inr ⟨run, listed, _, covered, toNat_ofNat_small listed covered, rfl⟩)

theorem isSmall_of_not_covers {c : Char} (undotted : c ≠ 'İ') (uncovered : ∀ run ∈ caseRuns, run.covers c = false) :
    IsSmall c := by
  have notFound : caseRuns.find? (·.covers c) = none := by simpa using uncovered
  unfold IsSmall lowerChar
  rw [if_neg undotted, notFound]

theorem isSmall_of_mem_lowerChar {c d : Char} (member : d ∈ lowerChar c) : IsSmall d := by
  rcases lowerChar_cases c with ⟨_, _, own⟩ | ⟨_, dotted⟩ | ⟨run, listed, small, covered, place, single⟩
  · rw [own, List.mem_singleton] at member
    rwa [member]
  · simp only [dotted, List.mem_cons, List.not_mem_nil, or_false] at member
    rcases member with rfl | rfl <;> (unfold IsSmall; decide)
  · rw [single, List.mem_singleton] at member
    subst member
    refine isSmall_of_not_covers ?_ ?_
    · rintro rfl
      have avoids := caseRuns_avoid run listed (0x130, 0x130) (by simp)
      exact CaseRun.not_between_of_avoids covered avoids (by rw [← place]; decide)
    · intro other capital
      have misses := List.all_eq_true.mp (List.all_eq_true.mp caseRuns_miss run listed) other capital
      exact CaseRun.not_covers_of_misses covered (caseRuns_grounded run listed).1 misses place

theorem not_isWhitespace_of_covers {run : CaseRun} {c d : Char} (listed : run ∈ caseRuns)
    (covered : run.covers c = true) (place : d.toNat = run.small c.toNat) : isWhitespace d = false := by
  by_contra white
  rw [Bool.not_eq_false] at white
  obtain ⟨range, among, within⟩ := List.any_eq_true.mp white
  have avoids := caseRuns_avoid run listed range (List.mem_cons_of_mem _ (List.mem_cons_of_mem _ among))
  refine CaseRun.not_between_of_avoids covered avoids ?_
  rw [← place]
  simpa using within

/-- White space is the small form of nothing but itself. -/
theorem eq_of_isWhitespace_of_mem_lowerChar {c d : Char} (white : isWhitespace d = true)
    (member : d ∈ lowerChar c) : d = c := by
  rcases lowerChar_cases c with ⟨_, _, own⟩ | ⟨_, dotted⟩ | ⟨run, listed, small, covered, place, single⟩
  · rw [own] at member
    exact List.mem_singleton.mp member
  · simp only [dotted, List.mem_cons, List.not_mem_nil, or_false] at member
    rcases member with rfl | rfl <;> exact absurd white (by decide)
  · rw [single, List.mem_singleton] at member
    subst member
    rw [not_isWhitespace_of_covers listed covered place] at white
    contradiction

theorem lowerChar_ne_nil (c : Char) : lowerChar c ≠ [] := by
  rcases lowerChar_cases c with ⟨_, _, own⟩ | ⟨_, dotted⟩ | ⟨_, _, _, _, _, single⟩
  · rw [own]
    simp
  · simp [dotted]
  · simp [single]

/-- The small form of one character between others. -/
def lowerAmid (before : List Char) (c : Char) (after : List Char) : List Char :=
  if c = 'Σ' then [lowerSigma before after] else lowerChar c

theorem lowerAfter_cons (before : List Char) (c : Char) (after : List Char) :
    lowerAfter before (c :: after) = lowerAmid before c after ++ lowerAfter (c :: before) after := rfl

theorem lowerAmid_cases (before : List Char) (c : Char) (after : List Char) :
    lowerAmid before c after = ['ς'] ∨ lowerAmid before c after = ['σ'] ∨ lowerAmid before c after = lowerChar c := by
  unfold lowerAmid lowerSigma
  split
  · split <;> simp
  · simp

theorem lowerAmid_ne_nil (before : List Char) (c : Char) (after : List Char) : lowerAmid before c after ≠ [] := by
  rcases lowerAmid_cases before c after with final | medial | alone
  · simp [final]
  · simp [medial]
  · rw [alone]
    exact lowerChar_ne_nil c

theorem isSmall_of_mem_lowerAmid {before after : List Char} {c d : Char} (member : d ∈ lowerAmid before c after) :
    IsSmall d := by
  rcases lowerAmid_cases before c after with final | medial | alone
  · rw [final, List.mem_singleton] at member
    rw [member, IsSmall]
    decide
  · rw [medial, List.mem_singleton] at member
    rw [member, IsSmall]
    decide
  · exact isSmall_of_mem_lowerChar (alone ▸ member)

theorem eq_of_isWhitespace_of_mem_lowerAmid {before after : List Char} {c d : Char} (white : isWhitespace d = true)
    (member : d ∈ lowerAmid before c after) : d = c := by
  rcases lowerAmid_cases before c after with final | medial | alone
  · rw [final, List.mem_singleton] at member
    exact absurd white (by rw [member]; decide)
  · rw [medial, List.mem_singleton] at member
    exact absurd white (by rw [member]; decide)
  · exact eq_of_isWhitespace_of_mem_lowerChar white (alone ▸ member)

theorem IsSmall.lowerAmid_eq {c : Char} (small : IsSmall c) (before after : List Char) :
    lowerAmid before c after = [c] := by
  unfold lowerAmid
  split
  · rename_i isSigma
    subst isSigma
    exact absurd small (by unfold IsSmall; decide)
  · exact small

theorem isSmall_of_mem_lowerAfter {before text : List Char} {d : Char} (member : d ∈ lowerAfter before text) :
    IsSmall d := by
  induction text generalizing before with
  | nil => cases member
  | cons c after ih =>
    rw [lowerAfter_cons] at member
    rcases List.mem_append.mp member with here | later
    · exact isSmall_of_mem_lowerAmid here
    · exact ih later

theorem lowerAfter_eq_self {before text : List Char} (small : ∀ c ∈ text, IsSmall c) : lowerAfter before text = text := by
  induction text generalizing before with
  | nil => rfl
  | cons c after ih =>
    rw [lowerAfter_cons, (small c (List.mem_cons_self ..)).lowerAmid_eq,
      ih fun d member => small d (List.mem_cons_of_mem _ member)]
    rfl

theorem lower_eq_self_iff {text : List Char} : lower text = text ↔ ∀ c ∈ text, IsSmall c := by
  refine ⟨fun same c member => ?_, lowerAfter_eq_self⟩
  rw [← same, lower] at member
  exact isSmall_of_mem_lowerAfter member

/-- Small letters have no smaller form. -/
theorem lower_eq_self_of_mem_lower {text part : List Char} (within : ∀ c ∈ part, c ∈ lower text) : lower part = part :=
  lowerAfter_eq_self fun c member => isSmall_of_mem_lowerAfter (within c member)

theorem mem_of_isWhitespace_of_mem_lowerAfter {before text : List Char} {d : Char} (white : isWhitespace d = true)
    (member : d ∈ lowerAfter before text) : d ∈ text := by
  induction text generalizing before with
  | nil => cases member
  | cons c after ih =>
    rw [lowerAfter_cons] at member
    rcases List.mem_append.mp member with here | later
    · exact List.mem_cons.mpr (Or.inl (eq_of_isWhitespace_of_mem_lowerAmid white here))
    · exact List.mem_cons_of_mem _ (ih later)

theorem lowerAfter_ne_nil (before : List Char) (c : Char) (after : List Char) : lowerAfter before (c :: after) ≠ [] := by
  simp [lowerAfter_cons, lowerAmid_ne_nil]

theorem head?_of_isWhitespace_of_head?_lower {text : List Char} {d : Char} (white : isWhitespace d = true)
    (atHead : (lower text).head? = some d) : text.head? = some d := by
  cases text with
  | nil => cases atHead
  | cons c after =>
    rw [lower, lowerAfter_cons, List.head?_append_of_ne_nil _ (lowerAmid_ne_nil [] c after)] at atHead
    rw [eq_of_isWhitespace_of_mem_lowerAmid white (List.mem_of_head? atHead)]
    rfl

theorem getLast?_of_isWhitespace_of_getLast?_lowerAfter {before text : List Char} {d : Char}
    (white : isWhitespace d = true) (atLast : (lowerAfter before text).getLast? = some d) : text.getLast? = some d := by
  induction text generalizing before with
  | nil => cases atLast
  | cons c after ih =>
    cases after with
    | nil =>
      rw [lowerAfter_cons, lowerAfter, List.append_nil] at atLast
      rw [eq_of_isWhitespace_of_mem_lowerAmid white (List.mem_of_getLast? atLast)]
      rfl
    | cons next rest =>
      rw [lowerAfter_cons, List.getLast?_append_of_ne_nil _ (lowerAfter_ne_nil (c :: before) next rest)] at atLast
      rw [List.getLast?_cons_cons]
      exact ih atLast

end TapeMachine.Text
