import TapeMachine.Proofs.Operations
import TapeMachine.Proofs.Undo

namespace TapeMachine.Machine

/-- The machine is where its clock says that it must be, counted in steps from its beginning. -/
def Normal (machine : Machine) : Prop := machine = Machine.advance^[machine.clock] machine.reset

theorem Consistent.iterate {machine : Machine} (consistent : machine.Consistent) (count : Nat) :
    (Machine.advance^[count] machine).Consistent := by
  induction count with
  | zero => exact consistent
  | succ count ih =>
    rw [Function.iterate_succ_apply']
    exact ih.advance

theorem Consistent.clock_iterate_le {machine : Machine} (consistent : machine.Consistent) (count : Nat) :
    (Machine.advance^[count] machine).clock ≤ machine.clock + count := by
  induction count with
  | zero => exact Nat.le_refl _
  | succ count ih =>
    rw [Function.iterate_succ_apply']
    cases halted : (Machine.advance^[count] machine).isHalted with
    | true =>
      rw [advance_of_halted halted]
      omega
    | false =>
      rw [(consistent.iterate count).clock_advance halted]
      omega

theorem reset_iterate (machine : Machine) (count : Nat) : (Machine.advance^[count] machine).reset = machine.reset := by
  induction count with
  | zero => rfl
  | succ count ih => rw [Function.iterate_succ_apply', reset_advance, ih]

namespace Normal

theorem start (table : Table) (input : String) (state : State) : (start table input state).Normal := rfl

theorem consistent {machine : Machine} (normal : machine.Normal) : machine.Consistent := by
  have reached := (Consistent.start machine.table machine.input machine.initialState).iterate machine.clock
  change (Machine.advance^[machine.clock] machine.reset).Consistent at reached
  rwa [← normal] at reached

theorem advance {machine : Machine} (normal : machine.Normal) : machine.advance.Normal := by
  cases halted : machine.isHalted with
  | true => rwa [advance_of_halted halted]
  | false =>
    unfold Normal
    rw [normal.consistent.clock_advance halted, reset_advance, Function.iterate_succ_apply', ← normal]

theorem iterate {machine : Machine} (normal : machine.Normal) (count : Nat) :
    (Machine.advance^[count] machine).Normal := by
  induction count with
  | zero => exact normal
  | succ count ih =>
    rw [Function.iterate_succ_apply']
    exact ih.advance

theorem eq_reset {machine : Machine} (normal : machine.Normal) (fresh : machine.clock = 0) :
    machine = machine.reset := by
  rw [Normal, fresh] at normal
  exact normal

/-- A machine with a step behind it comes from one that had not halted, and going back finds it. -/
theorem previous {machine : Machine} (normal : machine.Normal) {count : Nat}
    (behind : machine.clock = count + 1) :
    ∃ before : Machine, before.Normal ∧ before.isHalted = false ∧ before.clock = count ∧
      before.reset = machine.reset ∧ before.advance = machine ∧ machine.back = (before.reverted, before) := by
  have fresh : machine.reset.Consistent := Consistent.start _ _ _
  have reached : (Machine.advance^[count] machine.reset).advance = machine := by
    have position := normal
    rw [Normal, behind, Function.iterate_succ_apply'] at position
    exact position.symm
  have bound : (Machine.advance^[count] machine.reset).clock ≤ count := by
    have below := fresh.clock_iterate_le count
    have zero : machine.reset.clock = 0 := rfl
    omega
  have running : (Machine.advance^[count] machine.reset).isHalted = false := by
    by_contra halted
    rw [advance_of_halted (by simpa using halted)] at reached
    rw [reached] at bound
    omega
  have clock := (fresh.iterate count).clock_advance running
  have undone := (fresh.iterate count).back_advance running
  rw [reached, behind] at clock
  rw [reached] at undone
  exact ⟨Machine.advance^[count] machine.reset, (Normal.start _ _ _).iterate count, running, by omega,
    reset_iterate machine.reset count, reached, undone⟩

theorem back {machine : Machine} (normal : machine.Normal) : machine.back.2.Normal := by
  cases behind : machine.clock with
  | zero => rwa [back_of_clock_eq_zero behind]
  | succ count =>
    obtain ⟨before, beforeNormal, _, _, _, _, undone⟩ := normal.previous behind
    rw [undone]
    exact beforeNormal

theorem operate {machine : Machine} (normal : machine.Normal) (operation : Operation) :
    (machine.operate operation).Normal := by
  cases operation with
  | step => exact normal.advance
  | back => exact normal.back
  | runLimit limit =>
    change (advanceUpTo limit machine).Normal
    rw [advanceUpTo_eq_iterate]
    exact normal.iterate limit
  | setTape input => exact Normal.start machine.table input machine.initialState
  | reset => exact Normal.start machine.table machine.input machine.initialState

theorem operateAll {machine : Machine} (normal : machine.Normal) (operations : List Operation) :
    (machine.operateAll operations).Normal := by
  induction operations generalizing machine with
  | nil => exact normal
  | cons operation operations ih => exact ih (normal.operate operation)

/-- Going back as often as the clock says visits only configurations that a step had left, and ends
at the beginning. -/
theorem calls_back {machine : Machine} (normal : machine.Normal) :
    ∃ answers, calls Machine.back machine.clock machine = (answers, machine.reset) ∧
      ∀ answer ∈ answers, ∃ tape head, answer = .reverted tape head false := by
  generalize behind : machine.clock = count
  induction count generalizing machine with
  | zero =>
    refine ⟨[], ?_, by simp⟩
    rw [calls, ← normal.eq_reset behind]
  | succ count ih =>
    obtain ⟨before, beforeNormal, running, clock, reset, _, undone⟩ := normal.previous behind
    obtain ⟨answers, rest, reverted⟩ := ih beforeNormal clock
    refine ⟨before.reverted :: answers, ?_, ?_⟩
    · simp only [calls, undone, rest, reset]
    · intro answer member
      rcases List.mem_cons.mp member with first | later
      · exact ⟨before.tape.toList, before.head, by rw [first, Machine.reverted, running]⟩
      · exact reverted answer later

end Normal

/-- What a fresh machine has and a forward step keeps, every machine has that is some steps away from it. -/
theorem Normal.of_advance {motive : Machine → Prop} {machine : Machine} (normal : machine.Normal)
    (fresh : motive machine.reset)
    (kept : ∀ {machine : Machine}, machine.Normal → motive machine → motive machine.advance) : motive machine := by
  have reached : ∀ count, motive (Machine.advance^[count] machine.reset) := by
    intro count
    induction count with
    | zero => exact fresh
    | succ count ih =>
      rw [Function.iterate_succ_apply']
      exact kept ((Normal.start machine.table machine.input machine.initialState).iterate count) ih
  have position : machine = Machine.advance^[machine.clock] machine.reset := normal
  rw [position]
  exact reached machine.clock

theorem input_advance (machine : Machine) : machine.advance.input = machine.input := by
  have setup := congrArg Machine.input (reset_advance machine)
  exact setup

theorem seeded_advance (machine : Machine) : machine.advance.tape.seeded = machine.tape.seeded := by
  unfold advance
  cases machine.action with
  | apply index rule offset => exact Tape.seeded_write machine.tape machine.head rule.write
  | _ => rfl

theorem Normal.seeded {machine : Machine} (normal : machine.Normal) :
    machine.tape.seeded = machine.input.toList.length := by
  refine normal.of_advance (motive := fun machine => machine.tape.seeded = machine.input.toList.length) rfl ?_
  intro machine _ seeded
  rw [seeded_advance, input_advance, seeded]

theorem reset_back (machine : Machine) : machine.back.2.reset = machine.reset := by
  unfold back
  split
  · rfl
  · rfl
  · dsimp only
    split <;> rfl

theorem reset_operate (machine : Machine) (operation : Operation) :
    (machine.operate operation).reset =
      start machine.table (Operation.lastInput machine.input [operation]) machine.initialState := by
  cases operation with
  | step => exact reset_advance machine
  | back => exact reset_back machine
  | runLimit limit =>
    change (advanceUpTo limit machine).reset = machine.reset
    rw [advanceUpTo_eq_iterate, reset_iterate]
  | setTape input => rfl
  | reset => rfl

theorem table_operate (machine : Machine) (operation : Operation) :
    (machine.operate operation).table = machine.table := by
  have setup := congrArg Machine.table (reset_operate machine operation)
  exact setup

theorem initialState_operate (machine : Machine) (operation : Operation) :
    (machine.operate operation).initialState = machine.initialState := by
  have setup := congrArg Machine.initialState (reset_operate machine operation)
  exact setup

theorem input_operate (machine : Machine) (operation : Operation) :
    (machine.operate operation).input = Operation.lastInput machine.input [operation] := by
  have setup := congrArg Machine.input (reset_operate machine operation)
  exact setup

theorem reset_operateAll (machine : Machine) (operations : List Operation) :
    (machine.operateAll operations).reset =
      start machine.table (Operation.lastInput machine.input operations) machine.initialState := by
  induction operations generalizing machine with
  | nil => rfl
  | cons operation operations ih =>
    have rest := ih (machine.operate operation)
    rw [table_operate, initialState_operate, input_operate] at rest
    refine rest.trans ?_
    cases operation <;> rfl

theorem table_operateAll (machine : Machine) (operations : List Operation) :
    (machine.operateAll operations).table = machine.table := by
  have setup := congrArg Machine.table (reset_operateAll machine operations)
  exact setup

theorem ofTable?_eq_some_iff {table : Table} {input : String} {initial : Option State} {machine : Machine} :
    ofTable? table input initial = some machine ↔
      ∃ state, (initial.filter (· ≠ "") <|> table.initialState?) = some state ∧ start table input state = machine :=
  Option.map_eq_some_iff

/-- Whatever was done with it, a machine is a fresh one on its last input after as many steps as it
has rules in its history, and one more if it has aborted. Going back as often is possible, not more
often, and leads to that fresh machine. -/
theorem normal_form_of_operations {table : Table} {input : String} {initial : Option State} {machine : Machine}
    (built : ofTable? table input initial = some machine) (operations : List Operation) :
    let used := machine.operateAll operations
    let count := used.stepCount + if used.abortedFrom.isSome then 1 else 0
    ∃ fresh answers, ofTable? table (Operation.lastInput input operations) initial = some fresh ∧
      used = (calls step count fresh).2 ∧
      calls back count used = (answers, fresh) ∧
      (∀ answer ∈ answers, ∃ tape head, answer = .reverted tape head false) ∧
      fresh.back = (.noOp, fresh) := by
  intro used count
  obtain ⟨state, chosen, rfl⟩ := ofTable?_eq_some_iff.mp built
  have normal : used.Normal := (Normal.start table input state).operateAll operations
  have fresh : used.reset = start table (Operation.lastInput input operations) state :=
    reset_operateAll (start table input state) operations
  obtain ⟨answers, undone, reverted⟩ := normal.calls_back
  refine ⟨used.reset, answers, ofTable?_eq_some_iff.mpr ⟨state, chosen, fresh.symm⟩, ?_, undone, reverted,
    back_of_clock_eq_zero rfl⟩
  rw [calls_step_snd]
  exact normal

/-- Two rules and an abort on the second input, reached on a detour. -/
theorem normal_form_of_operations_aborted :
    let table : Table := ⟨[⟨"q", '0', '1', .right, "q"⟩]⟩
    ofTable? table "0" none = some (start table "0" "q") ∧
      let used := (start table "0" "q").operateAll
        [.runLimit 5, .back, .setTape "00", .runLimit 2, .back, .runLimit 9]
      ∃ fresh answers, ofTable? table "00" none = some fresh ∧ used = (calls step 3 fresh).2 ∧
        calls back 3 used = (answers, fresh) ∧
        (∀ answer ∈ answers, ∃ tape head, answer = .reverted tape head false) ∧
        fresh.back = (.noOp, fresh) := by
  intro table
  have built : ofTable? table "0" none = some (start table "0" "q") := rfl
  refine ⟨built, ?_⟩
  intro used
  have count : used.stepCount + (if used.abortedFrom.isSome then 1 else 0) = 3 := by decide
  obtain ⟨fresh, answers, same, forward, undone, rest⟩ := normal_form_of_operations built
    [.runLimit 5, .back, .setTape "00", .runLimit 2, .back, .runLimit 9]
  rw [← count]
  exact ⟨fresh, answers, same, forward, undone, rest⟩

end TapeMachine.Machine
