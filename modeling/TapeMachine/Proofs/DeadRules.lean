import TapeMachine.Proofs.Findings
import TapeMachine.Proofs.Renumbering
import TapeMachine.Proofs.Textbook

namespace TapeMachine

open Textbook

namespace Table

/-- A kept item stands in the filtered list behind the kept ones before it. -/
theorem getElem?_filter_of_getElem? {Item : Type} {keep : Item → Bool} {items : List Item} {index : Nat} {item : Item}
    (atIndex : items[index]? = some item) (kept : keep item = true) :
    (items.filter keep)[((items.take index).filter keep).length]? = some item := by
  obtain ⟨within, isItem⟩ := List.getElem?_eq_some_iff.mp atIndex
  have parts : items.take index ++ item :: items.drop (index + 1) = items := by
    rw [← isItem, ← List.drop_eq_getElem_cons within, List.take_append_drop]
  have filtered : items.filter keep =
      (items.take index).filter keep ++ item :: (items.drop (index + 1)).filter keep := by
    rw [← List.filter_cons_of_pos kept, ← List.filter_append, parts]
  rw [filtered, List.getElem?_append_right (Nat.le_refl _), Nat.sub_self]
  rfl

theorem exists_of_getElem?_filter {Item : Type} {keep : Item → Bool} {items : List Item} {position : Nat} {item : Item}
    (atPosition : (items.filter keep)[position]? = some item) :
    ∃ index, items[index]? = some item ∧ ((items.take index).filter keep).length = position := by
  induction items generalizing position with
  | nil => simp at atPosition
  | cons first rest ih =>
    cases kept : keep first with
    | true =>
      rw [List.filter_cons_of_pos kept] at atPosition
      cases position with
      | zero => exact ⟨0, by simpa using atPosition, rfl⟩
      | succ position =>
        obtain ⟨index, atIndex, before⟩ := ih (by simpa using atPosition)
        exact ⟨index + 1, by simpa using atIndex, by simp [kept, before]⟩
    | false =>
      rw [List.filter_cons_of_neg (by simp [kept])] at atPosition
      obtain ⟨index, atIndex, before⟩ := ih atPosition
      exact ⟨index + 1, by simpa using atIndex, by simp [kept, before]⟩

/-- A rule that no computation from `initial` can apply: an earlier one is for the same state and symbol,
or its state is terminal, or no chain of rules leads to its state. -/
def Dead (table : Table) (initial : State) (item : NumberedRule) : Prop :=
  (∃ earlier ∈ table.rules.take item.index, earlier.start = item.rule.start ∧ earlier.read = item.rule.read) ∨
    item.rule.start ∈ terminalNames ∨ ¬ table.Reaches initial item.rule.start

instance (table : Table) (initial : State) (item : NumberedRule) : Decidable (table.Dead initial item) :=
  inferInstanceAs (Decidable (_ ∨ _ ∨ _))

/-- The table without its dead rules. -/
def living (table : Table) (initial : State) : Table :=
  ⟨(table.numbered.filter fun item => ¬ table.Dead initial item).map (·.rule)⟩

/-- Where a living rule stands when the dead ones are gone. -/
def livingBefore (table : Table) (initial : State) (index : Nat) : Nat :=
  ((table.numbered.take index).filter fun item => ¬ table.Dead initial item).length

theorem getElem?_numbered (table : Table) (index : Nat) :
    table.numbered[index]? = table.rules[index]?.map fun rule => ⟨index, rule⟩ := by
  simp [numbered, Function.comp_def]

theorem FirstMatch.not_dead {table : Table} {initial state : State} {symbol : Symbol} {index : Nat} {rule : Rule}
    (first : table.FirstMatch state symbol index rule) (reached : table.Reaches initial state)
    (running : state.isTerminal = false) : ¬ table.Dead initial ⟨index, rule⟩ := by
  rintro (⟨earlier, member, same⟩ | terminal | unreached)
  · obtain ⟨position, atPosition⟩ := List.mem_iff_getElem?.mp member
    rw [List.getElem?_take] at atPosition
    split at atPosition
    · rename_i below
      refine first.lowest position earlier below atPosition ?_
      rw [← first.fits.1, ← first.fits.2]
      exact same
    · cases atPosition
  · rw [← State.isTerminal_iff] at terminal
    rw [← first.fits.1, terminal] at running
    contradiction
  · exact unreached (first.fits.1.symm ▸ reached)

theorem livingBefore_mono (table : Table) (initial : State) {index later : Nat} (upTo : index ≤ later) :
    table.livingBefore initial index ≤ table.livingBefore initial later :=
  ((List.take_prefix_take_left upTo).sublist.filter _).length_le

/-- The first rule that fits is alive wherever a computation can be, and no other living rule gets before it. -/
theorem renumbering_living (table : Table) (initial : State) :
    table.Renumbering (table.living initial) (table.livingBefore initial) (table.Reaches initial) := by
  refine ⟨fun rule member reached => reached.tail ⟨rule, member, rfl, rfl⟩, ?_, ?_⟩
  · intro state symbol index rule reached running first
    have alive := first.not_dead reached running
    have atNumber : table.numbered[index]? = some ⟨index, rule⟩ := by
      rw [getElem?_numbered, first.atIndex]
      rfl
    refine ⟨?_, first.fits, ?_⟩
    · rw [living, List.getElem?_map, livingBefore, getElem?_filter_of_getElem? atNumber (by simpa using alive)]
      rfl
    · intro earlier other below atEarlier fits
      rw [living, List.getElem?_map] at atEarlier
      obtain ⟨item, atItem, isOther⟩ := Option.map_eq_some_iff.mp atEarlier
      obtain ⟨position, atPosition, before⟩ := exists_of_getElem?_filter atItem
      rw [getElem?_numbered] at atPosition
      obtain ⟨candidate, atCandidate, isItem⟩ := Option.map_eq_some_iff.mp atPosition
      have sooner : position < index := by
        by_contra notBefore
        have order := table.livingBefore_mono initial (Nat.le_of_not_lt notBefore)
        rw [livingBefore, livingBefore, before] at order
        exact absurd below (Nat.not_lt.mpr order)
      rw [← isItem] at isOther
      rw [← isOther] at fits
      exact first.lowest position candidate sooner atCandidate fits
  · rintro state symbol _ _ unfit ⟨rule, member, fits⟩
    obtain ⟨item, among, isRule⟩ := List.mem_map.mp member
    have holds := (table.lists_numbered.mem_iff item).mp (List.mem_filter.mp among).1
    exact unfit ⟨rule, isRule ▸ List.mem_of_getElem? holds, fits⟩

end Table

namespace Machine

/-- Dead rules can be taken away: the steps from `initial` answer the same, up to the position of a rule
without a direction, and apply the same rules. -/
theorem steps_without_dead_rules (table : Table) {initial : State} (named : initial ≠ "") (input : String) (count : Nat) :
    ∃ machine other, ofTable? table input (some initial) = some machine ∧
      ofTable? (table.living initial) input (some initial) = some other ∧
      (calls step count other).1 = (calls step count machine).1.map (Step.renumber (table.livingBefore initial)) ∧
      (∀ index token, .aborted (.invalidDirection index token) ∈ (calls step count machine).1 →
        ∃ rule, table.get? index = some rule ∧
          (table.living initial).get? (table.livingBefore initial index) = some rule) ∧
      let last := (calls step count machine).2
      let otherLast := (calls step count other).2
      otherLast.state = last.state ∧ otherLast.head = last.head ∧ otherLast.tape = last.tape ∧
        ∃ rules : List Rule, last.history.map last.table.get? = rules.map some ∧
          otherLast.history.map otherLast.table.get? = rules.map some := by
  have renumbering := table.renumbering_living initial
  have tracked : Tracked table (table.living initial) (table.livingBefore initial) (table.Reaches initial)
      (start table input initial) := .start .refl input
  have same : calls step count (start (table.living initial) input initial) =
      ((calls step count (start table input initial)).1.map (Step.renumber (table.livingBefore initial)),
        (calls step count (start table input initial)).2.renumber (table.living initial) (table.livingBefore initial)) :=
    tracked.calls_step_renumber renumbering count
  have trackedLast := tracked.iterate renumbering count
  rw [← calls_step_snd] at trackedLast
  refine ⟨_, _, ofTable?_of_named named table input, ofTable?_of_named named _ input, by rw [same],
    fun index token answered => tracked.named_of_invalidDirection renumbering answered, ?_⟩
  intro last otherLast
  have isRenumbered : otherLast = last.renumber (table.living initial) (table.livingBefore initial) := congrArg Prod.snd same
  rw [isRenumbered, trackedLast.onTable]
  exact ⟨rfl, rfl, rfl, trackedLast.exists_rules⟩

/-- Three rules are dead, each for another reason, and the abort tells the new position of the last. -/
theorem steps_without_dead_rules_aborted :
    let first : Rule := ⟨"q", '0', '1', .right, "p"⟩
    let last : Rule := ⟨"p", '0', '0', .unknown "x", "q"⟩
    let table : Table := ⟨[first, ⟨"q", '0', '0', .left, "q"⟩, ⟨"halt-accept", '0', '0', .right, "z"⟩,
      ⟨"z", '0', '0', .right, "p"⟩, last]⟩
    "q" ≠ "" ∧ table.living "q" = ⟨[first, last]⟩ ∧
      ∃ machine other, ofTable? table "00" (some "q") = some machine ∧
        ofTable? (table.living "q") "00" (some "q") = some other ∧
        (calls step 2 other).1 = (calls step 2 machine).1.map (Step.renumber (table.livingBefore "q")) ∧
        (calls step 2 machine).1 = [.applied ['1', '0'] 1 false first, .aborted (.invalidDirection 4 "x")] ∧
        (calls step 2 other).1 = [.applied ['1', '0'] 1 false first, .aborted (.invalidDirection 1 "x")] := by
  intro first last table
  have named : "q" ≠ "" := by decide
  obtain ⟨machine, other, built, builtOther, same, _⟩ := steps_without_dead_rules table named "00" 2
  have answers : (calls step 2 machine).1 = [.applied ['1', '0'] 1 false first, .aborted (.invalidDirection 4 "x")] := by
    cases Option.some.inj (built.symm.trans (ofTable?_of_named named table "00"))
    decide
  refine ⟨named, by decide, machine, other, built, builtOther, same, answers, ?_⟩
  rw [same, answers]
  decide

end Machine

end TapeMachine
