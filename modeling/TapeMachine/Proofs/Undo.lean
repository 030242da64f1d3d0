import TapeMachine.Proofs.Advance

namespace TapeMachine.Machine

/-- The forward steps that a machine has behind it and can undo: the applied rules, and an abort. -/
def clock (machine : Machine) : Nat :=
  machine.stepCount + if machine.abortedFrom.isSome then 1 else 0

theorem clock_eq_zero_iff {machine : Machine} :
    machine.clock = 0 ↔ machine.history = [] ∧ machine.abortedFrom = none := by
  simp only [clock, stepCount, history, List.reverse_eq_nil_iff, Nat.add_eq_zero_iff, List.length_eq_zero_iff]
  cases machine.abortedFrom <;> simp

theorem Consistent.clock_advance {machine : Machine} (consistent : machine.Consistent)
    (running : machine.isHalted = false) : machine.advance.clock = machine.clock + 1 := by
  have pending := consistent.abortedFrom_eq_none running
  rcases advance_of_running running with ⟨reason, next⟩ | ⟨index, rule, offset, _, _, next⟩
  · simp [next, clock, stepCount, perform, pending]
  · simp [next, clock, stepCount, perform, pending]

theorem back_abort {machine : Machine} (pending : machine.abortedFrom = none) (reason : Abort) :
    (machine.perform (.abort reason)).back = (machine.reverted, machine) := by
  have restored : { machine.perform (.abort reason) with state := machine.state, abortedFrom := none } = machine := by
    cases machine
    simp_all [perform]
  simp only [back, perform] at restored ⊢
  rw [restored]

/-- The head goes back to where the rule read, and writing there what the rule read restores the tape. -/
theorem Consistent.unapply_apply {machine : Machine} (consistent : machine.Consistent) {index : Nat}
    {rule : Rule} {offset : Int} (fits : rule.Fits machine.state machine.symbol)
    (move : rule.move.offset? = some offset) :
    unapply { machine.perform (.apply index rule offset) with trail := machine.trail } rule = machine := by
  have head : machine.head + offset + -offset = machine.head := by omega
  have tape : (machine.tape.write machine.head rule.write).write machine.head rule.read = machine.tape := by
    rw [fits.2]
    exact consistent.tape.write_back machine.head rule.write
  have start := fits.1
  simp only [unapply, perform, Direction.offset?_reverse move, head, tape, start]

theorem back_apply {machine : Machine} (pending : machine.abortedFrom = none) {index : Nat} {rule : Rule}
    {offset : Int} (atIndex : machine.table.get? index = some rule) :
    (machine.perform (.apply index rule offset)).back =
      let before := unapply { machine.perform (.apply index rule offset) with trail := machine.trail } rule
      (before.reverted, before) := by
  simp [back, perform, pending, atIndex]

/-- Going back undoes the step of a machine that had not halted, a rule as well as an abort. -/
theorem Consistent.back_advance {machine : Machine} (consistent : machine.Consistent)
    (running : machine.isHalted = false) : machine.advance.back = (machine.reverted, machine) := by
  have pending := consistent.abortedFrom_eq_none running
  rcases advance_of_running running with ⟨reason, next⟩ | ⟨index, rule, offset, first, move, next⟩
  · rw [next, back_abort pending]
  · rw [next, back_apply pending first.atIndex, consistent.unapply_apply first.fits move]

theorem back_of_clock_eq_zero {machine : Machine} (zero : machine.clock = 0) : machine.back = (.noOp, machine) := by
  obtain ⟨noRule, noAbort⟩ := clock_eq_zero_iff.mp zero
  have trail : machine.trail = [] := List.reverse_eq_nil_iff.mp noRule
  simp only [back, trail, noAbort]

end TapeMachine.Machine
