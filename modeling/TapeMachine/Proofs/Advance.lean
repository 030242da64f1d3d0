import TapeMachine.Machine
import TapeMachine.Proofs.Lookup
import TapeMachine.Proofs.TapeExtent

namespace TapeMachine

theorem Halt.isTerminal_state (halt : Halt) : State.isTerminal halt.state = true := by
  cases halt <;> decide

/-- The way back is as far as the way there. -/
theorem Direction.offset?_reverse {move : Direction} {offset : Int} (known : move.offset? = some offset) :
    (move.reverse?.bind Direction.offset?).getD 0 = -offset := by
  cases move with
  | left => cases known; rfl
  | right => cases known; rfl
  | unknown token => cases known

/-- A step of the head goes to the next position, on one side or the other. -/
theorem Direction.offset?_cases {move : Direction} {offset : Int} (known : move.offset? = some offset) :
    offset = -1 ∨ offset = 1 := by
  cases move with
  | left => exact Or.inl (Option.some.inj known).symm
  | right => exact Or.inr (Option.some.inj known).symm
  | unknown token => cases known

namespace Machine

/-- What a forward step may do, and when. -/
inductive Acts (machine : Machine) : Action → Prop
  | stay : machine.isHalted = true → Acts machine .stay
  | undefined : machine.isHalted = false →
      (¬ ∃ rule ∈ machine.table.rules, rule.Fits machine.state machine.symbol) →
      Acts machine (.abort (.undefinedTransition machine.state machine.symbol))
  | invalid {index rule} : machine.isHalted = false →
      machine.table.FirstMatch machine.state machine.symbol index rule → rule.move.offset? = none →
      Acts machine (.abort (.invalidDirection index rule.move.token))
  | apply {index rule offset} : machine.isHalted = false →
      machine.table.FirstMatch machine.state machine.symbol index rule → rule.move.offset? = some offset →
      Acts machine (.apply index rule offset)

theorem acts (machine : Machine) : machine.Acts machine.action := by
  unfold action
  by_cases halted : machine.isHalted = true
  · rw [if_pos halted]
    exact .stay halted
  · rw [if_neg halted]
    have running : machine.isHalted = false := Bool.eq_false_iff.mpr halted
    cases found : machine.table.find? machine.state machine.symbol with
    | none => exact .undefined running (Table.find?_eq_none_iff.mp found)
    | some pair =>
      obtain ⟨index, rule⟩ := pair
      have first := Table.find?_eq_some_iff.mp found
      dsimp only
      cases move : rule.move.offset? with
      | none => exact .invalid running first move
      | some offset => exact .apply running first move

theorem Acts.action_eq {machine : Machine} {action : Action} (acts : machine.Acts action) :
    machine.action = action := by
  cases acts with
  | stay halted => exact if_pos halted
  | undefined running unfit =>
    rw [Machine.action, if_neg (by simp [running]), Table.find?_eq_none_iff.mpr unfit]
  | invalid running first move =>
    rw [Machine.action, if_neg (by simp [running]), Table.find?_eq_some_iff.mpr first]
    simp only [move]
  | apply running first move =>
    rw [Machine.action, if_neg (by simp [running]), Table.find?_eq_some_iff.mpr first]
    simp only [move]

theorem step_eq_of_acts {machine : Machine} {action : Action} (acts : machine.Acts action) :
    machine.step = ((machine.perform action).outcome action, machine.perform action) := by
  rw [step, advance, acts.action_eq]

/-- An abort is answered where the step aborts, and for the same reason. -/
theorem acts_of_aborted {machine : Machine} {reason : Abort} (answered : machine.step.1 = .aborted reason) :
    machine.Acts (.abort reason) := by
  have acts := machine.acts
  unfold step at answered
  generalize machine.action = action at acts answered
  cases action with
  | abort other =>
    cases answered
    exact acts
  | _ => cases answered

theorem advance_of_halted {machine : Machine} (halted : machine.isHalted = true) : machine.advance = machine := by
  rw [advance, (Acts.stay halted).action_eq]
  rfl

/-- Before it has halted, a machine either aborts or applies the first rule that fits. -/
theorem advance_of_running {machine : Machine} (running : machine.isHalted = false) :
    (∃ reason, machine.advance = machine.perform (.abort reason)) ∨
      ∃ index rule offset, machine.table.FirstMatch machine.state machine.symbol index rule ∧
        rule.move.offset? = some offset ∧ machine.advance = machine.perform (.apply index rule offset) := by
  have acts := machine.acts
  unfold advance
  generalize machine.action = action at acts
  cases acts with
  | stay halted => simp [running] at halted
  | undefined => exact Or.inl ⟨_, rfl⟩
  | invalid => exact Or.inl ⟨_, rfl⟩
  | apply _ first move => exact Or.inr ⟨_, _, _, first, move, rfl⟩

theorem reset_advance (machine : Machine) : machine.advance.reset = machine.reset := by
  unfold advance
  cases machine.action <;> rfl

theorem table_advance (machine : Machine) : machine.advance.table = machine.table := by
  unfold advance
  cases machine.action <;> rfl

/-- What every machine keeps: its tape stores no more than it must, and only a machine in the state
of an abort has an abort to undo. -/
structure Consistent (machine : Machine) : Prop where
  tape : machine.tape.Canonical
  aborted : machine.abortedFrom ≠ none → machine.state = Halt.abort.state

theorem Consistent.start (table : Table) (input : String) (state : State) :
    (start table input state).Consistent :=
  ⟨Tape.Canonical.ofString input, fun pending => absurd rfl pending⟩

theorem Consistent.abortedFrom_eq_none {machine : Machine} (consistent : machine.Consistent)
    (running : machine.isHalted = false) : machine.abortedFrom = none := by
  by_contra pending
  rw [isHalted, consistent.aborted pending, Halt.isTerminal_state] at running
  contradiction

theorem Consistent.advance {machine : Machine} (consistent : machine.Consistent) :
    machine.advance.Consistent := by
  cases halted : machine.isHalted with
  | true => rwa [advance_of_halted halted]
  | false =>
    rcases advance_of_running halted with ⟨reason, next⟩ | ⟨index, rule, offset, _, _, next⟩
    · rw [next]
      exact ⟨consistent.tape, fun _ => rfl⟩
    · rw [next]
      refine ⟨consistent.tape.write _ _, fun pending => ?_⟩
      exact absurd (consistent.abortedFrom_eq_none halted) pending

end Machine

end TapeMachine
