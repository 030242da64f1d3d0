import TapeMachine.Proofs.Outcome
import TapeMachine.Table.Reading

namespace TapeMachine

/-- A white line is passed over in both modes. -/
theorem Rule.ofLine?_of_white {line : String} (white : Text.trim line.toList = []) : ofLine? line = none := by
  rw [ofLine?, lineTokens, white]
  rfl

namespace Table

/-- Every line holds a rule or is white throughout. -/
def Readable (text : String) : Prop :=
  ∀ line ∈ lines text, Text.trim line.toList ≠ [] → (Rule.ofLine? line).isSome = true

instance (text : String) : Decidable (Readable text) :=
  inferInstanceAs (Decidable (∀ line ∈ lines text, Text.trim line.toList ≠ [] → (Rule.ofLine? line).isSome = true))

theorem strictRules_eq_ok_iff {number : Nat} {texts : List String} {rules : List Rule} :
    strictRules number texts = .ok rules ↔
      (∀ line ∈ texts, Text.trim line.toList ≠ [] → (Rule.ofLine? line).isSome = true) ∧
        texts.filterMap Rule.ofLine? = rules := by
  induction texts generalizing number rules with
  | nil => simp [strictRules]
  | cons first rest ih =>
    rw [strictRules, List.forall_mem_cons]
    by_cases white : Text.trim first.toList = []
    · rw [if_pos (List.isEmpty_iff.mpr white), ih, List.filterMap_cons_none (Rule.ofLine?_of_white white)]
      simp only [white, ne_eq, not_true_eq_false, false_implies, true_and]
    · rw [if_neg (by simpa using white)]
      cases found : Rule.ofLine? first with
      | none => simp [white]
      | some rule =>
        rw [List.filterMap_cons_some found]
        dsimp only
        rw [map_eq_ok_iff]
        simp only [ih, Option.isSome_some, implies_true, true_and, and_assoc, exists_and_left, exists_eq_left']

/-- Strict reading answers with the table that is read otherwise, or not at all. -/
theorem ofTextStrict_eq_ok_iff {text : String} {table : Table} :
    ofTextStrict text = .ok table ↔ Readable text ∧ ofText text = table := by
  rw [ofTextStrict, map_eq_ok_iff]
  simp only [strictRules_eq_ok_iff, and_assoc, exists_and_left, exists_eq_left']
  rfl

theorem ofTextIn_eq_ok_iff {mode : Mode} {text : String} {table : Table} :
    ofTextIn mode text = .ok table ↔ (mode = .strict → Readable text) ∧ ofText text = table := by
  cases mode with
  | normal => simp [ofTextIn]
  | strict => simp [ofTextIn, ofTextStrict_eq_ok_iff]

end Table

end TapeMachine
