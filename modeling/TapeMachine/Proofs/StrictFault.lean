import Mathlib.Data.List.Forall2
import TapeMachine.Proofs.StrictReading

namespace TapeMachine

/-- A line that is white throughout or holds a rule. -/
def Legible (line : String) : Prop := Text.trim line.toList ≠ [] → (Rule.ofLine? line).isSome = true

theorem not_legible_iff {line : String} :
    ¬ Legible line ↔ Text.trim line.toList ≠ [] ∧ Rule.ofLine? line = none := by
  rw [Legible, Classical.not_imp, Bool.not_eq_true, Option.isSome_eq_false_iff, Option.isNone_iff_eq_none]

theorem map_eq_error_iff {Fault Value Answer : Type} {change : Value → Answer} {answer : Except Fault Value}
    {fault : Fault} : change <$> answer = .error fault ↔ answer = .error fault := by
  cases answer with
  | error other =>
    constructor
    · intro changed
      exact congrArg Except.error (Except.error.inj changed)
    · rintro ⟨⟩
      rfl
  | ok value => exact ⟨nofun, nofun⟩

namespace Table

/-- The first line that is not legible, and the lines above it. -/
structure FirstRefused (texts above : List String) (line : String) : Prop where
  place : above ++ [line] <+: texts
  legible : ∀ other ∈ above, Legible other
  refused : ¬ Legible line

theorem firstRefused_cons_iff {first line : String} {rest above : List String} :
    FirstRefused (first :: rest) above line ↔
      (above = [] ∧ line = first ∧ ¬ Legible first) ∨
        ∃ others, above = first :: others ∧ Legible first ∧ FirstRefused rest others line := by
  constructor
  · rintro ⟨place, legible, refused⟩
    cases above with
    | nil =>
      obtain ⟨rfl, _⟩ := List.cons_prefix_cons.mp place
      exact Or.inl ⟨rfl, rfl, refused⟩
    | cons other others =>
      obtain ⟨rfl, within⟩ := List.cons_prefix_cons.mp place
      obtain ⟨atFirst, legible⟩ := List.forall_mem_cons.mp legible
      exact Or.inr ⟨others, rfl, atFirst, within, legible, refused⟩
  · rintro (⟨rfl, rfl, refused⟩ | ⟨others, rfl, atFirst, place, legible, refused⟩)
    · exact ⟨by simp, by simp, refused⟩
    · exact ⟨List.cons_prefix_cons.mpr ⟨rfl, place⟩, List.forall_mem_cons.mpr ⟨atFirst, legible⟩, refused⟩

section

variable {number : Nat} {first : String} {rest : List String} {fault : MalformedLine}

theorem strictRules_of_not_legible (refused : ¬ Legible first) :
    strictRules number (first :: rest) = .error ⟨number, String.ofList (Text.trim first.toList)⟩ := by
  obtain ⟨marked, noRule⟩ := not_legible_iff.mp refused
  rw [strictRules, if_neg (by simpa using marked), noRule]

theorem strictRules_of_legible (legible : Legible first) :
    strictRules number (first :: rest) = .error fault ↔ strictRules (number + 1) rest = .error fault := by
  rw [strictRules]
  by_cases white : Text.trim first.toList = []
  · rw [if_pos (List.isEmpty_iff.mpr white)]
  · obtain ⟨rule, found⟩ := Option.isSome_iff_exists.mp (legible white)
    rw [if_neg (by simpa using white), found]
    exact map_eq_error_iff

end

theorem strictRules_eq_error_iff {number : Nat} {texts : List String} {fault : MalformedLine} :
    strictRules number texts = .error fault ↔ ∃ above line, FirstRefused texts above line ∧
      fault = ⟨number + above.length, String.ofList (Text.trim line.toList)⟩ := by
  induction texts generalizing number with
  | nil =>
    constructor
    · nofun
    · rintro ⟨above, line, found, _⟩
      simpa using found.place
  | cons first rest ih =>
    simp only [firstRefused_cons_iff]
    by_cases legible : Legible first
    · rw [strictRules_of_legible legible, ih]
      constructor
      · rintro ⟨above, line, found, rfl⟩
        refine ⟨first :: above, line, Or.inr ⟨above, rfl, legible, found⟩, ?_⟩
        rw [List.length_cons, Nat.add_assoc, Nat.add_comm 1]
      · rintro ⟨_, line, ⟨_, _, refused⟩ | ⟨above, rfl, _, found⟩, rfl⟩
        · exact absurd legible refused
        · refine ⟨above, line, found, ?_⟩
          rw [List.length_cons, Nat.add_assoc, Nat.add_comm 1]
    · rw [strictRules_of_not_legible legible]
      constructor
      · rintro ⟨⟩
        exact ⟨[], first, Or.inl ⟨rfl, rfl, legible⟩, rfl⟩
      · rintro ⟨_, _, ⟨rfl, rfl, _⟩ | ⟨_, _, atFirst, _⟩, rfl⟩
        · rfl
        · exact absurd atFirst legible

theorem ofTextStrict_eq_error_iff {text : String} {fault : MalformedLine} :
    ofTextStrict text = .error fault ↔ ∃ above line, FirstRefused (lines text) above line ∧
      fault = ⟨above.length + 1, String.ofList (Text.trim line.toList)⟩ := by
  rw [ofTextStrict, map_eq_error_iff, strictRules_eq_error_iff]
  simp only [Nat.add_comm 1]

/-- The rules of a table stand on the lines that hold one. -/
theorem forall₂_ofText (text : String) :
    List.Forall₂ (fun line rule => Rule.ofLine? line = some rule)
      ((lines text).filter fun line => (Rule.ofLine? line).isSome) (ofText text).rules := by
  change List.Forall₂ _ _ ((lines text).filterMap Rule.ofLine?)
  induction lines text with
  | nil => exact .nil
  | cons first rest ih =>
    cases found : Rule.ofLine? first with
    | none => simpa [found] using ih
    | some rule => simpa [found] using ih

/-- Both modes read the same rules off the lines that hold one. The strict mode stops at the first other
line with something on it, and counts the white lines above it. -/
theorem ofTextIn_strict_exact (text : String) :
    (∀ table, ofTextIn .strict text = .ok table ↔ (∀ line ∈ lines text, Legible line) ∧ table = ofText text) ∧
      (∀ fault, ofTextIn .strict text = .error fault ↔
        ∃ above line, FirstRefused (lines text) above line ∧
          fault = ⟨above.length + 1, String.ofList (Text.trim line.toList)⟩ ∧ fault.content ≠ "") ∧
      List.Forall₂ (fun line rule => Rule.ofLine? line = some rule)
        ((lines text).filter fun line => (Rule.ofLine? line).isSome) (ofText text).rules ∧
      ∀ line ∈ lines text, Text.trim line.toList = [] → Rule.ofLine? line = none := by
  refine ⟨?accepted, ?refused, forall₂_ofText text, fun line _ => Rule.ofLine?_of_white⟩
  case accepted =>
    intro table
    rw [ofTextIn, ofTextStrict_eq_ok_iff, eq_comm (a := table)]
    rfl
  case refused =>
    intro fault
    rw [ofTextIn, ofTextStrict_eq_error_iff]
    refine exists₂_congr fun above line => and_congr_right fun found => ?_
    have marked := (not_legible_iff.mp found.refused).1
    constructor
    · rintro rfl
      exact ⟨rfl, by simpa using marked⟩
    · exact And.left

/-- White lines of several kinds stand above the line that is refused, and a second one below it. -/
theorem ofTextIn_strict_exact_white :
    let text := "\x0b\u2003\nQ 0 1 R P\n\r\n  bad  line\u00a0\nworse"
    ofTextIn .strict text = .error ⟨4, "bad  line"⟩ ∧
      (∃ above line, FirstRefused (lines text) above line ∧
        (⟨4, "bad  line"⟩ : MalformedLine) = ⟨above.length + 1, String.ofList (Text.trim line.toList)⟩ ∧
          "bad  line" ≠ "") ∧
      ∀ line ∈ lines text, Text.trim line.toList = [] → Rule.ofLine? line = none := by
  intro text
  obtain ⟨_, refused, _, white⟩ := ofTextIn_strict_exact text
  have answer : ofTextIn .strict text = .error ⟨4, "bad  line"⟩ := by decide
  exact ⟨answer, (refused _).mp answer, white⟩

end Table

end TapeMachine
