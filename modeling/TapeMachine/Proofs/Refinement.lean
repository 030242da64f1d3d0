import TapeMachine.Proofs.Textbook

namespace TapeMachine.Machine

open Textbook

theorem event?_outcome_apply (machine : Machine) (index : Nat) (rule : Rule) (offset : Int) :
    ((machine.perform (.apply index rule offset)).outcome (.apply index rule offset)).event? =
      some (.applied rule (machine.head + offset) (rule.next ∈ terminalNames)) := by
  simp only [outcome, Step.event?, perform, isHalted, State.isTerminal_eq_decide]

/-- What a forward step does is a move on the cells that can be read. -/
theorem exists_move (machine : Machine) :
    ∃ event, machine.step.1.event? = some event ∧
      Move machine.table machine.configuration event machine.step.2.configuration := by
  have acts := machine.acts
  unfold step advance
  generalize machine.action = action at acts
  cases acts with
  | stay halted => exact ⟨_, rfl, .halted (isHalted_iff.mp halted)⟩
  | undefined running unfit => exact ⟨_, rfl, .undefined (isHalted_eq_false_iff.mp running) unfit⟩
  | @invalid index rule running first move =>
    cases known : rule.move with
    | left => simp [known, Direction.offset?] at move
    | right => simp [known, Direction.offset?] at move
    | unknown token => exact ⟨_, rfl, .invalid (isHalted_eq_false_iff.mp running) first known⟩
  | @apply index rule offset running first move =>
    refine ⟨_, event?_outcome_apply machine index rule offset, ?_⟩
    dsimp only
    rw [configuration_apply]
    have moving := isHalted_eq_false_iff.mp running
    cases known : rule.move with
    | left =>
      obtain rfl : -1 = offset := by simpa [known, Direction.offset?] using move
      exact .left moving first known
    | right =>
      obtain rfl : 1 = offset := by simpa [known, Direction.offset?] using move
      exact .right moving first known
    | unknown token => simp [known, Direction.offset?] at move

theorem acts_of_move {machine : Machine} {event : Event} {after : Configuration}
    (move : Move machine.table machine.configuration event after) :
    ∃ action, machine.Acts action ∧ ((machine.perform action).outcome action).event? = some event ∧
      (machine.perform action).configuration = after := by
  cases move with
  | halted terminal => exact ⟨_, .stay (isHalted_iff.mpr terminal), rfl, rfl⟩
  | undefined moving unfit => exact ⟨_, .undefined (isHalted_eq_false_iff.mpr moving) unfit, rfl, rfl⟩
  | @invalid index rule token moving first known =>
    refine ⟨_, .invalid (isHalted_eq_false_iff.mpr moving) first (by rw [known]; rfl), ?_, rfl⟩
    simp only [outcome, Step.event?, known, Direction.token]
  | @left index rule moving first known =>
    exact ⟨_, .apply (isHalted_eq_false_iff.mpr moving) first (by rw [known]; rfl),
      event?_outcome_apply machine index rule (-1), configuration_apply machine index rule (-1)⟩
  | @right index rule moving first known =>
    exact ⟨_, .apply (isHalted_eq_false_iff.mpr moving) first (by rw [known]; rfl),
      event?_outcome_apply machine index rule 1, configuration_apply machine index rule 1⟩

theorem step_of_move {machine : Machine} {event : Event} {after : Configuration}
    (move : Move machine.table machine.configuration event after) :
    machine.step.1.event? = some event ∧ machine.step.2.configuration = after := by
  obtain ⟨action, acts, shows, moved⟩ := acts_of_move move
  rw [← acts.action_eq] at shows moved
  exact ⟨shows, moved⟩

/-- So many forward steps are so many moves, and the moves have no choice. -/
theorem calls_step_moves (machine : Machine) (count : Nat) :
    ∃ events, (calls step count machine).1.map Step.event? = events.map some ∧
      ∀ others last, Moves machine.table machine.configuration count others last ↔
        others = events ∧ last = (calls step count machine).2.configuration := by
  induction count generalizing machine with
  | zero =>
    refine ⟨[], rfl, ?_⟩
    intro others last
    constructor
    · intro moves
      cases moves
      exact ⟨rfl, rfl⟩
    · rintro ⟨rfl, rfl⟩
      exact .none
  | succ count ih =>
    obtain ⟨event, shows, move⟩ := exists_move machine
    obtain ⟨events, rest, moves⟩ := ih machine.step.2
    have table : machine.step.2.table = machine.table := table_advance machine
    rw [table] at moves
    refine ⟨event :: events, by simp only [calls, List.map_cons, shows, rest], ?_⟩
    intro others last
    constructor
    · intro run
      cases run with
      | next first later =>
        obtain ⟨showsFirst, reached⟩ := step_of_move first
        rw [← reached] at later
        obtain ⟨sameEvents, sameLast⟩ := (moves _ _).mp later
        have sameEvent := Option.some.inj (showsFirst.symm.trans shows)
        exact ⟨by rw [sameEvent, sameEvents], sameLast⟩
    · rintro ⟨rfl, rfl⟩
      exact .next move ((moves _ _).mpr ⟨rfl, rfl⟩)

theorem startsIn_of_ofTable? {table : Table} {input : String} {initial : Option State} {machine : Machine}
    (built : ofTable? table input initial = some machine) :
    ∃ state, StartsIn table initial state ∧ machine = start table input state := by
  obtain ⟨state, chosen, same⟩ := Option.map_eq_some_iff.mp built
  refine ⟨state, ?_, same.symm⟩
  cases given : initial.filter (· ≠ "") with
  | some asked =>
    rw [given] at chosen
    cases Option.some.inj chosen
    obtain ⟨isAsked, named⟩ := Option.filter_eq_some_iff.mp given
    rw [isAsked]
    exact .asked (by simpa using named)
  | none =>
    rw [given] at chosen
    have unnamed : initial = none ∨ initial = some "" := by
      cases initial with
      | none => exact Or.inl rfl
      | some asked => exact Or.inr (by simpa using given)
    obtain ⟨rule, atHead, isStart⟩ :=
      Option.map_eq_some_iff.mp (show table.rules.head?.map (·.start) = some state from chosen)
    obtain ⟨rules, isFirst⟩ := List.head?_eq_some_iff.mp atHead
    rw [← isStart]
    exact .first unnamed isFirst

/-- The machine refines the textbook one: any number of forward steps shows what the moves from the
input show, and reads afterwards as the moves leave it. -/
theorem steps_refine_textbook {table : Table} {input : String} {initial : Option State} {machine : Machine}
    (built : ofTable? table input initial = some machine) (count : Nat) :
    ∃ state events, StartsIn table initial state ∧
      (calls step count machine).1.map Step.event? = events.map some ∧
      ∀ others last, Moves table ⟨state, 0, inputCells input⟩ count others last ↔
        others = events ∧ last = (calls step count machine).2.configuration := by
  obtain ⟨state, starts, rfl⟩ := startsIn_of_ofTable? built
  obtain ⟨events, shows, moves⟩ := calls_step_moves (start table input state) count
  have atStart : (start table input state).configuration = ⟨state, 0, inputCells input⟩ := by
    simp only [configuration, start, Tape.read_ofString]
  rw [atStart] at moves
  exact ⟨state, events, starts, shows, moves⟩

/-- A rule, then one whose token names no movement, then nothing more. -/
theorem steps_refine_textbook_invalid :
    let table : Table := ⟨[⟨"q", '0', '1', .right, "p"⟩, ⟨"p", '1', '0', .unknown "x", "q"⟩]⟩
    let shown : List Event := [.applied ⟨"q", '0', '1', .right, "p"⟩ 1 false,
      .aborted (.invalidDirection 1 "x"), .halted "halt-abort"]
    ofTable? table "01" none = some (start table "01" "q") ∧
      (∃ state events, StartsIn table none state ∧
        (calls step 3 (start table "01" "q")).1.map Step.event? = events.map some ∧
        ∀ others last, Moves table ⟨state, 0, inputCells "01"⟩ 3 others last ↔
          others = events ∧ last = (calls step 3 (start table "01" "q")).2.configuration) ∧
      (calls step 3 (start table "01" "q")).1.map Step.event? = shown.map some := by
  intro table shown
  have built : ofTable? table "01" none = some (start table "01" "q") := rfl
  exact ⟨built, steps_refine_textbook built 3, by decide⟩

end TapeMachine.Machine
