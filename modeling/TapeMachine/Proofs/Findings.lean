import Mathlib.Data.String.Basic
import TapeMachine.Analysis
import TapeMachine.Proofs.Lookup
import TapeMachine.Proofs.Reachability

namespace TapeMachine

/-- `found` has each item with the property once and nothing else, in the order of their places. -/
structure Lists {Item Place : Type} [LT Place] (place : Item → Place) (property : Item → Prop)
    (found : List Item) : Prop where
  ascending : found.Pairwise fun item later => place item < place later
  mem_iff : ∀ item, item ∈ found ↔ property item

theorem Lists.isEmpty_iff {Item Place : Type} [LT Place] {place : Item → Place} {property : Item → Prop}
    {found : List Item} (lists : Lists place property found) : found.isEmpty = true ↔ ∀ item, ¬ property item := by
  rw [List.isEmpty_iff, List.eq_nil_iff_forall_not_mem]
  exact forall_congr' fun item => not_congr (lists.mem_iff item)

theorem Lists.congr {Item Place : Type} [LT Place] {place : Item → Place} {property other : Item → Prop}
    {found : List Item} (lists : Lists place property found) (same : ∀ item, property item ↔ other item) :
    Lists place other found :=
  ⟨lists.ascending, fun item => (lists.mem_iff item).trans (same item)⟩

namespace Text

theorem mem_insertName {name other : String} {names : List String} :
    other ∈ insertName name names ↔ other = name ∨ other ∈ names := by
  induction names with
  | nil => simp [insertName]
  | cons first rest ih =>
    unfold insertName
    split
    · simp
    · split
      · rename_i same
        simp [same]
      · simp only [List.mem_cons, ih, or_left_comm]

theorem insertName_ascending {name : String} {names : List String} (ascending : names.Pairwise (· < ·)) :
    (insertName name names).Pairwise (· < ·) := by
  induction names with
  | nil => simp [insertName]
  | cons first rest ih =>
    obtain ⟨below, tail⟩ := List.pairwise_cons.mp ascending
    unfold insertName
    split
    · rename_i before
      refine List.pairwise_cons.mpr ⟨?_, ascending⟩
      intro other member
      rcases List.mem_cons.mp member with rfl | later
      · exact before
      · exact before.trans (below other later)
    · rename_i notBefore
      split
      · exact ascending
      · rename_i different
        refine List.pairwise_cons.mpr ⟨?_, ih tail⟩
        intro other member
        rcases mem_insertName.mp member with rfl | later
        · exact lt_of_le_of_ne (not_lt.mp notBefore) (Ne.symm different)
        · exact below other later

theorem lists_sortedNames (names : List String) : Lists id (· ∈ names) (sortedNames names) := by
  induction names with
  | nil => exact ⟨.nil, fun _ => Iff.rfl⟩
  | cons name names ih =>
    refine ⟨insertName_ascending ih.ascending, fun other => ?_⟩
    rw [List.mem_cons, ← ih.mem_iff other]
    exact mem_insertName

end Text

namespace Table

/-- A rule at its position in the table. -/
def Holds (table : Table) (numbered : NumberedRule) : Prop := table.rules[numbered.index]? = some numbered.rule

theorem lists_numbered (table : Table) : Lists NumberedRule.index table.Holds table.numbered := by
  constructor
  · rw [numbered, List.pairwise_map]
    have indices : (table.rules.zipIdx.map (·.2)).Pairwise (· < ·) := by
      rw [List.zipIdx_map_snd]
      exact List.pairwise_lt_range'
    exact List.pairwise_map.mp indices
  · intro item
    simp only [numbered, Holds, List.mem_map, Prod.exists, List.mem_zipIdx_iff_getElem?]
    constructor
    · rintro ⟨rule, index, atIndex, rfl⟩
      exact atIndex
    · intro atIndex
      exact ⟨item.rule, item.index, atIndex, rfl⟩

theorem lists_filter_numbered (table : Table) (wanted : NumberedRule → Bool) :
    Lists NumberedRule.index (fun item => table.Holds item ∧ wanted item = true) (table.numbered.filter wanted) := by
  refine ⟨table.lists_numbered.ascending.filter _, fun item => ?_⟩
  rw [List.mem_filter, table.lists_numbered.mem_iff]

/-- The rule stands behind the first one for its state and its symbol. -/
structure Shadows (table : Table) (shadowing : Shadowing) : Prop where
  atIndex : table.rules[shadowing.index]? = some shadowing.rule
  behind : shadowing.first < shadowing.index
  first : ∃ other, table.FirstMatch shadowing.rule.start shadowing.rule.read shadowing.first other

theorem Shadows.eq_of_index_eq {table : Table} {shadowing other : Shadowing} (shadows : table.Shadows shadowing)
    (another : table.Shadows other) (same : shadowing.index = other.index) : shadowing = other := by
  obtain ⟨index, first, rule⟩ := shadowing
  obtain ⟨otherIndex, otherFirst, otherRule⟩ := other
  obtain rfl : index = otherIndex := same
  obtain rfl : rule = otherRule := Option.some.inj (shadows.atIndex.symm.trans another.atIndex)
  obtain ⟨_, isFirst⟩ := shadows.first
  obtain ⟨_, isOther⟩ := another.first
  obtain rfl : first = otherFirst := (isFirst.unique isOther).1
  rfl

/-- `seen` knows the first rule for each state and symbol that has one below `index`. -/
def Known (table : Table) (index : Nat) (seen : List ((State × Symbol) × Nat)) : Prop :=
  ∀ state symbol first, seen.lookup (state, symbol) = some first ↔
    first < index ∧ ∃ rule, table.FirstMatch state symbol first rule

theorem Known.start (table : Table) : table.Known 0 [] := by
  intro state symbol first
  simp

theorem Known.keep {table : Table} {index : Nat} {seen : List ((State × Symbol) × Nat)} (known : table.Known index seen)
    {rule : Rule} (atIndex : table.rules[index]? = some rule) {first : Nat}
    (found : seen.lookup (rule.start, rule.read) = some first) : table.Known (index + 1) seen := by
  intro state symbol other
  rw [known state symbol other]
  constructor
  · rintro ⟨below, isFirst⟩
    exact ⟨by omega, isFirst⟩
  · rintro ⟨below, fitting, isFirst⟩
    refine ⟨Nat.lt_of_le_of_ne (by omega) ?_, fitting, isFirst⟩
    rintro rfl
    obtain ⟨lower, _, earlier⟩ := (known _ _ _).mp found
    obtain rfl : fitting = rule := Option.some.inj (isFirst.atIndex.symm.trans atIndex)
    exact isFirst.lowest first _ lower earlier.atIndex (by
      rw [← isFirst.fits.1, ← isFirst.fits.2]
      exact earlier.fits)

theorem Known.add {table : Table} {index : Nat} {seen : List ((State × Symbol) × Nat)} (known : table.Known index seen)
    {rule : Rule} (atIndex : table.rules[index]? = some rule)
    (new : seen.lookup (rule.start, rule.read) = none) :
    table.Known (index + 1) (((rule.start, rule.read), index) :: seen) := by
  have isFirst : table.FirstMatch rule.start rule.read index rule := by
    obtain ⟨first, other, upTo, isFirst⟩ := exists_firstMatch atIndex ⟨rfl, rfl⟩
    have notBelow : ¬ first < index := by
      intro below
      rw [(known _ _ _).mpr ⟨below, other, isFirst⟩] at new
      cases new
    obtain rfl : first = index := by omega
    obtain rfl : other = rule := Option.some.inj (isFirst.atIndex.symm.trans atIndex)
    exact isFirst
  intro state symbol other
  by_cases here : (state, symbol) = (rule.start, rule.read)
  · obtain ⟨rfl, rfl⟩ := Prod.mk.inj here
    rw [List.lookup_cons_self, Option.some.injEq]
    constructor
    · rintro rfl
      exact ⟨by omega, rule, isFirst⟩
    · rintro ⟨_, _, another⟩
      exact (isFirst.unique another).1
  · rw [List.lookup_cons, beq_eq_false_iff_ne.mpr here, known state symbol other]
    constructor
    · rintro ⟨below, another⟩
      exact ⟨by omega, another⟩
    · rintro ⟨below, fitting, another⟩
      refine ⟨Nat.lt_of_le_of_ne (by omega) ?_, fitting, another⟩
      rintro rfl
      obtain rfl : fitting = rule := Option.some.inj (another.atIndex.symm.trans atIndex)
      exact here (by rw [another.fits.1, another.fits.2])

theorem lists_shadowingsFrom {table : Table} {index : Nat} {seen : List ((State × Symbol) × Nat)}
    (known : table.Known index seen) {rest : List Rule} (isRest : table.rules.drop index = rest) :
    Lists Shadowing.index (fun item => index ≤ item.index ∧ table.Shadows item) (shadowingsFrom seen index rest) := by
  induction rest generalizing seen index with
  | nil =>
    refine ⟨.nil, fun item => ⟨fun member => (List.not_mem_nil member).elim, ?_⟩⟩
    rintro ⟨within, shadows⟩
    have beyond := List.drop_eq_nil_iff.mp isRest
    have stored := (List.getElem?_eq_some_iff.mp shadows.atIndex).1
    omega
  | cons rule rest ih =>
    have atIndex : table.rules[index]? = some rule := by
      rw [← List.head?_drop, isRest]
      rfl
    have isTail : table.rules.drop (index + 1) = rest := by
      rw [← List.tail_drop, isRest]
      rfl
    unfold shadowingsFrom
    split
    · rename_i first found
      obtain ⟨below, isFirst⟩ := (known _ _ _).mp found
      have shadowed : table.Shadows ⟨index, first, rule⟩ := ⟨atIndex, below, isFirst⟩
      have later := ih (known.keep atIndex found) isTail
      refine ⟨List.pairwise_cons.mpr ⟨?_, later.ascending⟩, fun item => ?_⟩
      · intro item member
        have above := ((later.mem_iff item).mp member).1
        exact above
      · rw [List.mem_cons, later.mem_iff]
        constructor
        · rintro (rfl | ⟨above, shadows⟩)
          · exact ⟨Nat.le_refl _, shadowed⟩
          · exact ⟨by omega, shadows⟩
        · rintro ⟨within, shadows⟩
          by_cases here : item.index = index
          · exact Or.inl (shadows.eq_of_index_eq shadowed here)
          · exact Or.inr ⟨by omega, shadows⟩
    · rename_i new
      have later := ih (known.add atIndex new) isTail
      refine later.congr fun item => ⟨fun ⟨above, shadows⟩ => ⟨by omega, shadows⟩, ?_⟩
      rintro ⟨within, shadows⟩
      refine ⟨Nat.lt_of_le_of_ne within ?_, shadows⟩
      rintro rfl
      obtain ⟨other, isOther⟩ := shadows.first
      obtain rfl : item.rule = rule := Option.some.inj (shadows.atIndex.symm.trans atIndex)
      rw [(known _ _ _).mpr ⟨shadows.behind, other, isOther⟩] at new
      cases new

theorem lists_shadowings (table : Table) : Lists Shadowing.index table.Shadows table.shadowings :=
  (lists_shadowingsFrom (Known.start table) rfl).congr fun _ => and_iff_right (Nat.zero_le _)

theorem lists_unreachable (table : Table) (initial : State) :
    Lists id (fun state => (∃ rule ∈ table.rules, rule.start = state) ∧ state.isTerminal = false ∧
      ¬ table.Reaches initial state) (table.unreachable initial) := by
  refine (Text.lists_sortedNames _).congr fun state => ?_
  rw [List.mem_filter, List.mem_map]
  simp [mem_reachable_iff]

end Table

end TapeMachine
