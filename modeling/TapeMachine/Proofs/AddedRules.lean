import TapeMachine.Proofs.Renumbering

namespace TapeMachine

namespace Table

/-- A table with further rules below its own. -/
def append (table : Table) (further : List Rule) : Table := ⟨table.rules ++ further⟩

theorem FirstMatch.append {table : Table} {state : State} {symbol : Symbol} {index : Nat} {rule : Rule}
    (first : table.FirstMatch state symbol index rule) (further : List Rule) :
    (table.append further).FirstMatch state symbol index rule := by
  have within : index < table.rules.length := (List.getElem?_eq_some_iff.mp first.atIndex).1
  refine ⟨?_, first.fits, ?_⟩
  · rw [Table.append, List.getElem?_append_left within]
    exact first.atIndex
  · intro earlier other before atEarlier
    rw [Table.append, List.getElem?_append_left (by omega)] at atEarlier
    exact first.lowest earlier other before atEarlier

/-- Where no rule of the table fits, the first of the further ones that does is found behind them all. -/
theorem FirstMatch.append_right {table : Table} {further : List Rule} {state : State} {symbol : Symbol}
    {position : Nat} {rule : Rule} (unfit : ¬ ∃ rule ∈ table.rules, rule.Fits state symbol)
    (first : (Table.mk further).FirstMatch state symbol position rule) :
    (table.append further).FirstMatch state symbol (table.rules.length + position) rule := by
  refine ⟨?_, first.fits, ?_⟩
  · rw [Table.append, List.getElem?_append_right (by omega), Nat.add_sub_cancel_left]
    exact first.atIndex
  · intro earlier other before atEarlier fits
    by_cases within : earlier < table.rules.length
    · rw [Table.append, List.getElem?_append_left within] at atEarlier
      exact unfit ⟨other, List.mem_of_getElem? atEarlier, fits⟩
    · rw [Table.append, List.getElem?_append_right (by omega)] at atEarlier
      exact first.lowest (earlier - table.rules.length) other (by omega) atEarlier fits

theorem unfit_append {table : Table} {further : List Rule} {state : State} {symbol : Symbol}
    (unfit : ¬ ∃ rule ∈ table.rules, rule.Fits state symbol) (unfitFurther : ¬ ∃ rule ∈ further, rule.Fits state symbol) :
    ¬ ∃ rule ∈ (table.append further).rules, rule.Fits state symbol := by
  rintro ⟨rule, member, fits⟩
  rcases List.mem_append.mp member with own | added
  · exact unfit ⟨rule, own, fits⟩
  · exact unfitFurther ⟨rule, added, fits⟩

end Table

/-- The step found no rule. -/
def Step.LacksRule (step : Step) : Prop := ∃ state symbol, step = .aborted (.undefinedTransition state symbol)

namespace Machine

/-- The same machine with further rules below those of its table. -/
def withRules (machine : Machine) (further : List Rule) : Machine :=
  { machine with table := machine.table.append further }

variable {machine : Machine} (further : List Rule)

theorem perform_withRules (action : Action) :
    (machine.withRules further).perform action = (machine.perform action).withRules further := by
  cases action <;> rfl

theorem outcome_withRules (action : Action) :
    (machine.withRules further).outcome action = machine.outcome action := by
  cases action <;> rfl

theorem step_withRules_of_acts {action : Action} (acts : (machine.withRules further).Acts action) :
    (machine.withRules further).step =
      ((machine.perform action).outcome action, (machine.perform action).withRules further) := by
  rw [step_eq_of_acts acts, perform_withRules, outcome_withRules]

/-- A step that finds a rule, or needs none, does not see the further ones. -/
theorem step_withRules (found : ¬ machine.step.1.LacksRule) :
    (machine.withRules further).step = (machine.step.1, machine.step.2.withRules further) := by
  have acts := machine.acts
  generalize machine.action = action at acts
  rw [step_eq_of_acts acts] at found ⊢
  refine step_withRules_of_acts further ?_
  cases acts with
  | stay halted => exact .stay halted
  | undefined => exact absurd ⟨_, _, rfl⟩ found
  | invalid running first move => exact .invalid running (first.append further) move
  | apply running first move => exact .apply running (first.append further) move

theorem isHalted_of_lacksRule (lacking : machine.step.1.LacksRule) : machine.step.2.isHalted = true := by
  obtain ⟨state, symbol, isAbort⟩ := lacking
  rw [step_eq_of_acts (acts_of_aborted isAbort), isHalted, perform, Halt.isTerminal_state]

theorem isHalted_of_lacksRule_mem {count : Nat} {answer : Step} (member : answer ∈ (calls step count machine).1)
    (lacking : answer.LacksRule) : (calls step count machine).2.isHalted = true := by
  induction count generalizing machine with
  | zero => exact absurd member List.not_mem_nil
  | succ count ih =>
    change (calls step count machine.step.2).2.isHalted = true
    rcases List.mem_cons.mp member with now | later
    · have halted := isHalted_of_lacksRule (now ▸ lacking)
      rw [calls_step_snd, iterate_advance_of_halted halted]
      exact halted
    · exact ih later

/-- So many steps see nothing of the further rules as long as none of them lacks a rule. -/
theorem calls_step_withRules {count : Nat} (found : ∀ answer ∈ (calls step count machine).1, ¬ answer.LacksRule) :
    calls step count (machine.withRules further) =
      ((calls step count machine).1, (calls step count machine).2.withRules further) := by
  induction count generalizing machine with
  | zero => rfl
  | succ count ih =>
    have foundNow : ¬ machine.step.1.LacksRule := found _ (List.mem_cons_self ..)
    have foundLater : calls step count (machine.step.2.withRules further) = _ :=
      ih fun answer member => found answer (List.mem_cons_of_mem _ member)
    simp only [calls, step_withRules further foundNow, foundLater]

/-- Where the table has no rule, the further ones may have one, known by its position below the others. -/
theorem step_withRules_of_undefinedTransition {state : State} {symbol : Symbol}
    (lacking : machine.step.1 = .aborted (.undefinedTransition state symbol)) :
    (machine.withRules further).step.1 = .aborted (.undefinedTransition state symbol) ∨
      ∃ position rule, further[position]? = some rule ∧
        ((machine.withRules further).step.1 =
            .aborted (.invalidDirection (machine.table.rules.length + position) rule.move.token) ∨
          (∃ tape head isTerminal, (machine.withRules further).step.1 = .applied tape head isTerminal rule) ∧
            (machine.withRules further).step.2.history =
              machine.history ++ [machine.table.rules.length + position]) := by
  cases acts_of_aborted lacking with
  | undefined running unfit =>
    cases found : (Table.mk further).find? machine.state machine.symbol with
    | none =>
      have unfitFurther := Table.find?_eq_none_iff.mp found
      rw [step_withRules_of_acts further (.undefined running (Table.unfit_append unfit unfitFurther))]
      exact Or.inl rfl
    | some pair =>
      obtain ⟨position, rule⟩ := pair
      have first := Table.FirstMatch.of_find? found
      have firstOfAll := first.append_right unfit
      refine Or.inr ⟨position, rule, first.atIndex, ?_⟩
      cases move : rule.move.offset? with
      | none =>
        rw [step_withRules_of_acts further (.invalid running firstOfAll move)]
        exact Or.inl rfl
      | some offset =>
        rw [step_withRules_of_acts further (.apply running firstOfAll move)]
        exact Or.inr ⟨⟨_, _, _, rfl⟩, List.reverse_cons⟩

/-- A step that lacks a rule is the first one: after another such step the machine would have halted and
look for no rule. -/
theorem not_lacksRule_before {machine : Machine} {place : Nat} {state : State} {symbol : Symbol}
    (lacking : (calls step place machine).2.step.1 = .aborted (.undefinedTransition state symbol)) :
    ∀ answer ∈ (calls step place machine).1, ¬ answer.LacksRule := by
  intro answer member lacksRule
  have halted := isHalted_of_lacksRule_mem member lacksRule
  cases acts_of_aborted lacking with
  | undefined running unfit =>
    rw [halted] at running
    contradiction

/-- Rules below the others make no difference as long as a rule is found. Where none is, they may only
prevent the abort. -/
theorem rules_below_conservative {initial : State} (named : initial ≠ "") (table : Table) (further : List Rule)
    (input : String) (count : Nat) :
    ∃ machine other, ofTable? table input (some initial) = some machine ∧
      ofTable? (table.append further) input (some initial) = some other ∧
      let answers := (calls step count machine).1
      let last := (calls step count machine).2
      let otherAnswers := (calls step count other).1
      let otherLast := (calls step count other).2
      ((∀ state symbol, .aborted (.undefinedTransition state symbol) ∉ answers) →
        otherAnswers = answers ∧ otherLast.state = last.state ∧ otherLast.head = last.head ∧
          otherLast.tape = last.tape ∧ otherLast.history = last.history ∧ otherLast.abortedFrom = last.abortedFrom) ∧
      ∀ place state symbol, answers[place]? = some (.aborted (.undefinedTransition state symbol)) →
        otherAnswers.take place = answers.take place ∧
        (otherAnswers[place]? = some (.aborted (.undefinedTransition state symbol)) ∨
          ∃ position rule, further[position]? = some rule ∧
            (otherAnswers[place]? =
                some (.aborted (.invalidDirection (table.rules.length + position) rule.move.token)) ∨
              (∃ tape head isTerminal, otherAnswers[place]? = some (.applied tape head isTerminal rule)) ∧
                (calls step (place + 1) other).2.history =
                  (calls step place other).2.history ++ [table.rules.length + position])) := by
  refine ⟨_, _, ofTable?_of_named named table input, ofTable?_of_named named (table.append further) input, ?_, ?_⟩
  · intro found
    have every : ∀ answer ∈ (calls step count (start table input initial)).1, ¬ answer.LacksRule := by
      rintro answer member ⟨state, symbol, rfl⟩
      exact found state symbol member
    have same := calls_step_withRules further every
    change calls step count (start (table.append further) input initial) = _ at same
    rw [same]
    exact ⟨rfl, rfl, rfl, rfl, rfl, rfl⟩
  · intro place state symbol answered
    have within : place < count := by
      have bound := (List.getElem?_eq_some_iff.mp answered).1
      rwa [length_calls] at bound
    rw [getElem?_calls step within] at answered
    have lacking := Option.some.inj answered
    have same := calls_step_withRules further (not_lacksRule_before lacking)
    change calls step place (start (table.append further) input initial) = _ at same
    have onTable : (calls step place (start table input initial)).2.table = table := by
      rw [calls_step_snd]
      exact congrArg Machine.table (reset_iterate (start table input initial) place)
    have outcome := step_withRules_of_undefinedTransition further lacking
    rw [take_calls step within, take_calls step within, getElem?_calls step within, calls_step_succ_snd, same]
    refine ⟨rfl, ?_⟩
    rcases outcome with still | ⟨position, rule, atPosition, shown⟩
    · exact Or.inl (congrArg some still)
    · refine Or.inr ⟨position, rule, atPosition, ?_⟩
      rw [onTable] at shown
      rcases shown with invalid | ⟨⟨tape, head, isTerminal, applied⟩, history⟩
      · exact Or.inl (congrArg some invalid)
      · exact Or.inr ⟨⟨tape, head, isTerminal, congrArg some applied⟩, history⟩

/-- A rule further down takes over where the only rule above it no longer fits. -/
theorem rules_below_conservative_taking_over :
    let table : Table := ⟨[⟨"q", '0', '1', .right, "q"⟩]⟩
    let further : List Rule := [⟨"q", '0', '0', .left, "p"⟩, ⟨"q", '_', '0', .left, "p"⟩]
    let machine := start table "0" "q"
    let other := start (table.append further) "0" "q"
    "q" ≠ "" ∧
      ((∀ state symbol, .aborted (.undefinedTransition state symbol) ∉ (calls step 1 machine).1) ∧
        (calls step 1 other).1 = (calls step 1 machine).1) ∧
      ((calls step 3 machine).1[1]? = some (.aborted (.undefinedTransition "q" '_')) ∧
        (calls step 3 other).1.take 1 = (calls step 3 machine).1.take 1 ∧
        (calls step 3 other).1[1]? = some (.applied ['1', '0'] 0 false ⟨"q", '_', '0', .left, "p"⟩)) := by
  intro table further machine other
  have named : "q" ≠ "" := by decide
  have found : ∀ state symbol, .aborted (.undefinedTransition state symbol) ∉ (calls step 1 machine).1 := by
    have answers : (calls step 1 machine).1 = [.applied ['1'] 1 false ⟨"q", '0', '1', .right, "q"⟩] := by
      decide
    simp [answers]
  have lacking : (calls step 3 machine).1[1]? = some (.aborted (.undefinedTransition "q" '_')) := by
    decide
  have made : ofTable? table "0" (some "q") = some machine := ofTable?_of_named named table "0"
  have madeOther : ofTable? (table.append further) "0" (some "q") = some other :=
    ofTable?_of_named named (table.append further) "0"
  refine ⟨named, ⟨found, ?_⟩, lacking, ?_, by decide⟩
  · obtain ⟨_, _, built, builtOther, same, _⟩ := rules_below_conservative named table further "0" 1
    cases Option.some.inj (built.symm.trans made)
    cases Option.some.inj (builtOther.symm.trans madeOther)
    exact (same found).1
  · obtain ⟨_, _, built, builtOther, _, supplied⟩ := rules_below_conservative named table further "0" 3
    cases Option.some.inj (built.symm.trans made)
    cases Option.some.inj (builtOther.symm.trans madeOther)
    exact (supplied 1 "q" '_' lacking).1

end Machine

end TapeMachine
