import TapeMachine.Proofs.NormalForm

namespace TapeMachine.Machine

theorem Reachable.of_ofTable? {motive : Machine → Prop}
    (initially : ∀ {table input initial machine}, ofTable? table input initial = some machine → motive machine)
    (preserved : ∀ {machine} operation, motive machine → motive (machine.operate operation))
    {machine : Machine} (reachable : Reachable machine) : motive machine := by
  induction reachable with
  | ofTable built => exact initially built
  | ofProgram built =>
    obtain ⟨table, made⟩ := Program.ofTable?_of_machine built
    exact initially made
  | operate operation _ ih => exact preserved operation ih

theorem Reachable.normal {machine : Machine} (reachable : Reachable machine) : machine.Normal := by
  refine reachable.of_ofTable? ?_ (fun operation normal => normal.operate operation)
  intro table input initial machine built
  obtain ⟨state, _, rfl⟩ := ofTable?_eq_some_iff.mp built
  exact Normal.start table input state

/-- What fresh machines have and a forward step keeps, every machine in use has: going back and the other
operations lead to nothing that forward steps do not lead to. -/
theorem Reachable.of_advance {motive : Machine → Prop}
    (fresh : ∀ table input state, motive (start table input state))
    (kept : ∀ {machine : Machine}, machine.Normal → motive machine → motive machine.advance)
    {machine : Machine} (reachable : Reachable machine) : motive machine :=
  reachable.normal.of_advance (fresh machine.table machine.input machine.initialState) kept

/-- The initial state of a machine can be asked for again, even one without a name: then it is the
start of the first rule. -/
theorem Reachable.ofTable?_reset {machine : Machine} (reachable : Reachable machine) :
    ofTable? machine.table machine.input (some machine.initialState) = some machine.reset := by
  have choice : ((some machine.initialState).filter (· ≠ "") <|> machine.table.initialState?) =
      some machine.initialState := by
    refine reachable.of_ofTable? (motive := fun machine =>
      ((some machine.initialState).filter (· ≠ "") <|> machine.table.initialState?) = some machine.initialState)
      ?_ ?_
    · intro table input initial machine built
      obtain ⟨state, chosen, rfl⟩ := ofTable?_eq_some_iff.mp built
      by_cases named : state = ""
      · subst named
        cases given : initial.filter (· ≠ "") with
        | none =>
          rw [given] at chosen
          exact chosen
        | some other =>
          have nonempty := (Option.filter_eq_some_iff.mp given).2
          rw [given] at chosen
          cases Option.some.inj chosen
          simp at nonempty
      · simp [start, Option.filter, named]
    · intro machine operation choice
      rw [table_operate, initialState_operate]
      exact choice
  exact ofTable?_eq_some_iff.mpr ⟨machine.initialState, choice, rfl⟩

theorem Normal.back_step {machine : Machine} (normal : machine.Normal) (running : machine.isHalted = false) :
    machine.step.2.back = (.reverted machine.tape.toList machine.head false, machine) := by
  change machine.advance.back = _
  rw [normal.consistent.back_advance running, reverted, running]

theorem Normal.step_back {machine : Machine} (normal : machine.Normal) (behind : machine.clock ≠ 0) :
    machine.back.2.step.2 = machine := by
  obtain ⟨count, clock⟩ := Nat.exists_eq_succ_of_ne_zero behind
  obtain ⟨before, _, _, _, _, reached, undone⟩ := normal.previous clock
  rw [undone]
  exact reached

theorem Normal.back_eq_noOp_iff {machine : Machine} (normal : machine.Normal) :
    machine.back.1 = .noOp ↔ machine.clock = 0 := by
  cases behind : machine.clock with
  | zero => simp [back_of_clock_eq_zero behind]
  | succ count =>
    obtain ⟨before, _, _, _, _, _, undone⟩ := normal.previous behind
    simp [undone, reverted]

/-- On every machine in use, a step of one that has not halted is undone by going back, and going
back is undone by a step. There is nothing to undo exactly on a fresh machine. -/
theorem step_back_inverse {machine : Machine} (reachable : Reachable machine) :
    (machine.isHalted = false →
      machine.step.2.back = (.reverted machine.tape.toList machine.head false, machine)) ∧
    (machine.history ≠ [] ∨ machine.abortedFrom ≠ none → machine.back.2.step.2 = machine) ∧
    (machine.back.1 = .noOp ↔ machine.history = [] ∧ machine.abortedFrom = none) ∧
    (machine.history = [] ∧ machine.abortedFrom = none →
      ofTable? machine.table machine.input (some machine.initialState) = some machine) := by
  have normal := reachable.normal
  refine ⟨normal.back_step, ?_, normal.back_eq_noOp_iff.trans clock_eq_zero_iff, ?_⟩
  · intro something
    refine normal.step_back fun zero => ?_
    obtain ⟨noRule, noAbort⟩ := clock_eq_zero_iff.mp zero
    rcases something with rules | abort
    · exact rules noRule
    · exact abort noAbort
  · intro nothing
    rw [reachable.ofTable?_reset, ← normal.eq_reset (clock_eq_zero_iff.mpr nothing)]

/-- One machine with a rule behind it and an abort ahead, and one that has not moved. -/
theorem step_back_inverse_running :
    let fresh := start ⟨[⟨"q", '0', '_', .left, "p"⟩]⟩ "0" "q"
    (Reachable fresh ∧ (fresh.history = [] ∧ fresh.abortedFrom = none) ∧
      ofTable? fresh.table fresh.input (some fresh.initialState) = some fresh) ∧
    Reachable fresh.advance ∧ (fresh.advance.isHalted = false ∧ fresh.advance.history ≠ []) ∧
      fresh.advance.step.2.back = (.reverted ['_'] (-1) false, fresh.advance) ∧
      fresh.advance.back.2.step.2 = fresh.advance := by
  intro fresh
  have built : ofTable? fresh.table "0" none = some fresh := rfl
  have atStart : Reachable fresh := .ofTable built
  have moved : Reachable fresh.advance := .operate .step atStart
  have running : fresh.advance.isHalted = false := by decide
  have rules : fresh.advance.history ≠ [] := by decide
  exact ⟨⟨atStart, ⟨rfl, rfl⟩, (step_back_inverse atStart).2.2.2 ⟨rfl, rfl⟩⟩, moved, ⟨running, rules⟩,
    (step_back_inverse moved).1 running, (step_back_inverse moved).2.1 (Or.inl rules)⟩

end TapeMachine.Machine
