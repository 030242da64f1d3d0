import TapeMachine.Table

namespace TapeMachine

def Rule.Fits (rule : Rule) (state : State) (symbol : Symbol) : Prop :=
  rule.start = state ∧ rule.read = symbol

theorem Rule.matches_iff {rule : Rule} {state : State} {symbol : Symbol} :
    rule.matches state symbol = true ↔ rule.Fits state symbol := by
  simp [Rule.matches, Rule.Fits]

namespace Table

/-- The rule that a table has for a state and a symbol: none at a lower position fits. -/
structure FirstMatch (table : Table) (state : State) (symbol : Symbol) (index : Nat) (rule : Rule) : Prop where
  atIndex : table.rules[index]? = some rule
  fits : rule.Fits state symbol
  lowest : ∀ earlier other, earlier < index → table.rules[earlier]? = some other → ¬ other.Fits state symbol

theorem FirstMatch.unique {table : Table} {state : State} {symbol : Symbol} {index other : Nat}
    {rule otherRule : Rule} (first : table.FirstMatch state symbol index rule)
    (second : table.FirstMatch state symbol other otherRule) : index = other ∧ rule = otherRule := by
  have notAbove : ¬ other < index := fun above => first.lowest other otherRule above second.atIndex second.fits
  have notBelow : ¬ index < other := fun below => second.lowest index rule below first.atIndex first.fits
  obtain rfl : index = other := by omega
  exact ⟨rfl, Option.some.inj (first.atIndex.symm.trans second.atIndex)⟩

theorem FirstMatch.exists_fit {table : Table} {state : State} {symbol : Symbol} {index : Nat} {rule : Rule}
    (first : table.FirstMatch state symbol index rule) : ∃ rule ∈ table.rules, rule.Fits state symbol :=
  ⟨rule, List.mem_of_getElem? first.atIndex, first.fits⟩

theorem find?_eq_none_iff {table : Table} {state : State} {symbol : Symbol} :
    table.find? state symbol = none ↔ ¬ ∃ rule ∈ table.rules, rule.Fits state symbol := by
  unfold find?
  cases found : table.rules.findIdx? (·.matches state symbol) with
  | none =>
    have unmatched := List.findIdx?_eq_none_iff.mp found
    refine ⟨fun _ => ?_, fun _ => rfl⟩
    rintro ⟨rule, member, fits⟩
    rw [← Rule.matches_iff, unmatched rule member] at fits
    contradiction
  | some index =>
    obtain ⟨within, matched, _⟩ := List.findIdx?_eq_some_iff_getElem.mp found
    have fit : ∃ rule ∈ table.rules, rule.Fits state symbol :=
      ⟨table.rules[index], List.getElem_mem within, Rule.matches_iff.mp matched⟩
    simp [List.getElem?_eq_getElem within, fit]

theorem FirstMatch.of_find? {table : Table} {state : State} {symbol : Symbol} {index : Nat} {rule : Rule}
    (found : table.find? state symbol = some (index, rule)) : table.FirstMatch state symbol index rule := by
  obtain ⟨position, atPosition, rest⟩ := Option.bind_eq_some_iff.mp found
  obtain ⟨candidate, atCandidate, pair⟩ := Option.bind_eq_some_iff.mp rest
  cases Option.some.inj pair
  obtain ⟨within, matched, unmatched⟩ := List.findIdx?_eq_some_iff_getElem.mp atPosition
  rw [List.getElem?_eq_getElem within] at atCandidate
  cases Option.some.inj atCandidate
  refine ⟨List.getElem?_eq_getElem within, Rule.matches_iff.mp matched, ?_⟩
  intro earlier other before atEarlier fits
  rw [List.getElem?_eq_getElem (by omega : earlier < table.rules.length)] at atEarlier
  cases Option.some.inj atEarlier
  exact unmatched earlier before (Rule.matches_iff.mpr fits)

/-- The scan over the rules answers with the first one that fits. -/
theorem find?_eq_some_iff {table : Table} {state : State} {symbol : Symbol} {index : Nat} {rule : Rule} :
    table.find? state symbol = some (index, rule) ↔ table.FirstMatch state symbol index rule := by
  refine ⟨FirstMatch.of_find?, fun first => ?_⟩
  cases found : table.find? state symbol with
  | none => exact absurd first.exists_fit (find?_eq_none_iff.mp found)
  | some pair =>
    obtain ⟨sameIndex, sameRule⟩ := (FirstMatch.of_find? found).unique first
    rw [← sameIndex, ← sameRule]

/-- Where some rule fits, one of them is the first, and it stands no later. -/
theorem exists_firstMatch {table : Table} {state : State} {symbol : Symbol} {index : Nat} {rule : Rule}
    (atIndex : table.rules[index]? = some rule) (fits : rule.Fits state symbol) :
    ∃ first other, first ≤ index ∧ table.FirstMatch state symbol first other := by
  cases found : table.find? state symbol with
  | none => exact absurd ⟨rule, List.mem_of_getElem? atIndex, fits⟩ (find?_eq_none_iff.mp found)
  | some pair =>
    have isFirst := FirstMatch.of_find? found
    refine ⟨pair.1, pair.2, Nat.le_of_not_lt fun below => ?_, isFirst⟩
    exact isFirst.lowest index rule below atIndex fits

end Table

end TapeMachine
