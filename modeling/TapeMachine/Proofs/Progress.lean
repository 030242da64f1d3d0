import TapeMachine.Proofs.Inverse
import TapeMachine.Proofs.Textbook

namespace TapeMachine.Machine

/-- What a call of a step, forward or back, tells about the change that it has made. -/
structure Tells (before : Machine) (call : Step × Machine) : Prop where
  changed : call.1.isProgress = true ↔ call.2.configuration ≠ before.configuration
  unchanged : call.1.isProgress = false → call.2 = before
  aborted : ∀ reason, call.1 = .aborted reason →
    call.2.head = before.head ∧ call.2.tape = before.tape ∧ call.2.history = before.history

theorem configuration_abort_ne {machine : Machine} (running : machine.isHalted = false) (reason : Abort) :
    (machine.perform (.abort reason)).configuration ≠ machine.configuration := by
  intro same
  have state : Halt.abort.state = machine.state := congrArg (·.state) same
  rw [isHalted, ← state, Halt.isTerminal_state] at running
  contradiction

theorem configuration_apply_ne {machine : Machine} {index : Nat} {rule : Rule} {offset : Int}
    (move : rule.move.offset? = some offset) :
    (machine.perform (.apply index rule offset)).configuration ≠ machine.configuration := by
  intro same
  have head : machine.head + offset = machine.head := congrArg (·.head) same
  have moves := Direction.offset?_cases move
  omega

/-- A step of a machine that has not halted leaves another configuration: an abort another state, and a rule
another head position. -/
theorem configuration_advance_ne {machine : Machine} (running : machine.isHalted = false) :
    machine.advance.configuration ≠ machine.configuration := by
  rcases advance_of_running running with ⟨reason, next⟩ | ⟨index, rule, offset, _, move, next⟩
  · rw [next]
    exact configuration_abort_ne running reason
  · rw [next]
    exact configuration_apply_ne move

theorem isProgress_step (machine : Machine) : machine.step.1.isProgress = !machine.isHalted := by
  have acts := machine.acts
  generalize machine.action = action at acts
  rw [step_eq_of_acts acts]
  cases acts with
  | stay halted => simp [outcome, Step.isProgress, halted]
  | undefined running => simp [outcome, Step.isProgress, running]
  | invalid running => simp [outcome, Step.isProgress, running]
  | apply running => simp [outcome, Step.isProgress, running]

theorem tells_step (machine : Machine) : machine.Tells machine.step := by
  have after : machine.step.2 = machine.advance := rfl
  cases halted : machine.isHalted with
  | true =>
    have same : machine.step.2 = machine := advance_of_halted halted
    refine ⟨?_, fun _ => same, fun reason answered => ?_⟩
    · simp [isProgress_step, halted, same]
    · rw [same]
      exact ⟨rfl, rfl, rfl⟩
  | false =>
    refine ⟨?_, ?_, ?_⟩
    · have other := configuration_advance_ne halted
      simp [isProgress_step, halted, after, other]
    · simp [isProgress_step, halted]
    · intro reason answered
      rw [step_eq_of_acts (acts_of_aborted answered)]
      exact ⟨rfl, rfl, rfl⟩

theorem Normal.tells_back {machine : Machine} (normal : machine.Normal) : machine.Tells machine.back := by
  cases behind : machine.clock with
  | zero =>
    rw [back_of_clock_eq_zero behind]
    exact ⟨by simp [Step.isProgress], fun _ => rfl, nofun⟩
  | succ count =>
    obtain ⟨before, _, running, _, _, reached, undone⟩ := normal.previous behind
    have other := configuration_advance_ne running
    rw [reached] at other
    rw [undone]
    refine ⟨?_, nofun, nofun⟩
    simp [reverted, Step.isProgress, other.symm]

/-- On every machine in use a step, forward or back, says that it was progress exactly if the configuration
is another one afterwards. If not, nothing at all is another. An abort changes neither the tape nor the
head nor the history. -/
theorem isProgress_exact {machine : Machine} (reachable : Reachable machine) :
    machine.Tells machine.step ∧ machine.Tells machine.back :=
  ⟨machine.tells_step, reachable.normal.tells_back⟩

/-- A rule that leaves its cell as it was, and an abort behind it: the machine cannot go on, but it can go back. -/
theorem isProgress_exact_aborted :
    let machine := (start ⟨[⟨"q", '0', '0', .right, "q"⟩]⟩ "0" "q").operate (.runLimit 2)
    Reachable machine ∧ (machine.Tells machine.step ∧ machine.Tells machine.back) ∧
      machine.step.1.isProgress = false ∧ machine.back.1.isProgress = true := by
  intro machine
  have built : ofTable? machine.table "0" none = some (start machine.table "0" "q") := rfl
  have used : Reachable machine := .operate (.runLimit 2) (.ofTable built)
  exact ⟨used, isProgress_exact used, by decide, by decide⟩

end TapeMachine.Machine
