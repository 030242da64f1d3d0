import TapeMachine.Proofs.Inverse

namespace TapeMachine.Machine

theorem runLimit_snd (machine : Machine) (limit : Nat) : (machine.runLimit limit).2 = advance^[limit] machine :=
  advanceUpTo_eq_iterate limit machine

theorem runLimit_of_halted {machine : Machine} {limit : Nat} (halted : (advance^[limit] machine).isHalted = true) :
    machine.runLimit limit = (.ok (advance^[limit] machine).state, advance^[limit] machine) := by
  simp only [runLimit, advanceUpTo_eq_iterate, if_pos halted]

theorem runLimit_of_running {machine : Machine} {limit : Nat} (running : (advance^[limit] machine).isHalted = false) :
    machine.runLimit limit = (.error ⟨limit⟩, advance^[limit] machine) := by
  have unfinished : ¬ (advance^[limit] machine).isHalted = true := by simp [running]
  simp only [runLimit, advanceUpTo_eq_iterate, if_neg unfinished]

theorem runLimit_eq_ok_iff {machine : Machine} {limit : Nat} {state : State} :
    (machine.runLimit limit).1 = .ok state ↔
      (advance^[limit] machine).isHalted = true ∧ (advance^[limit] machine).state = state := by
  cases halted : (advance^[limit] machine).isHalted with
  | true => simp [runLimit_of_halted halted]
  | false => simp [runLimit_of_running halted]

theorem iterate_advance_of_le {machine : Machine} {limit larger : Nat}
    (halted : (advance^[limit] machine).isHalted = true) (above : limit ≤ larger) :
    advance^[larger] machine = advance^[limit] machine := by
  obtain ⟨further, rfl⟩ := Nat.exists_eq_add_of_le' above
  rw [Function.iterate_add_apply, iterate_advance_of_halted halted]

theorem running_of_running_advance {machine : Machine} (running : machine.advance.isHalted = false) :
    machine.isHalted = false := by
  by_contra halted
  rw [advance_of_halted (by simpa using halted)] at running
  exact halted running

/-- A step that does not halt the machine adds one rule to the history: an abort would halt it. -/
theorem history_advance {machine : Machine} (running : machine.advance.isHalted = false) :
    ∃ index, machine.advance.history = machine.history ++ [index] := by
  rcases advance_of_running (running_of_running_advance running) with ⟨reason, next⟩ | ⟨index, rule, offset, _, _, next⟩
  · rw [next, isHalted, perform, Halt.isTerminal_state] at running
    contradiction
  · exact ⟨index, by rw [next]; exact List.reverse_cons⟩

theorem history_iterate {machine : Machine} {count : Nat} (running : (advance^[count] machine).isHalted = false) :
    ∃ applied, applied.length = count ∧ (advance^[count] machine).history = machine.history ++ applied := by
  induction count with
  | zero => exact ⟨[], rfl, (List.append_nil _).symm⟩
  | succ count ih =>
    -- The last step comes off: if it has not halted the machine, none before it has.
    rw [Function.iterate_succ_apply'] at running ⊢
    obtain ⟨applied, length, earlier⟩ := ih (running_of_running_advance running)
    obtain ⟨index, latest⟩ := history_advance running
    refine ⟨applied ++ [index], by rw [List.length_append, length, List.length_singleton], ?_⟩
    rw [latest, earlier, List.append_assoc]

/-- If so many steps halt the machine, the run without a limit stops where they do. -/
theorem run_eq_some_of_halted {machine : Machine} {count : Nat} (halted : (advance^[count] machine).isHalted = true) :
    machine.run = some (advance^[count] machine) := by
  induction count generalizing machine with
  | zero =>
    rw [Function.iterate_zero_apply] at halted ⊢
    rw [run, if_pos halted]
  | succ count ih =>
    cases now : machine.isHalted with
    | true => rw [run, if_pos now, iterate_advance_of_halted now]
    | false => rw [run, if_neg (by simp [now]), ih halted, Function.iterate_succ_apply]

/-- A bounded run is as many steps as its limit. It tells whether they have halted the machine, and if
not, each of them has applied a rule. So two bounded runs are one with the limits added, and one that
halts the machine ends where every larger limit and the run without a limit end. -/
theorem bounded_runs_compose {machine : Machine} (reachable : Reachable machine) (limit : Nat) :
    let answer := (machine.runLimit limit).1
    let last := (machine.runLimit limit).2
    last = (calls step limit machine).2 ∧
    (last.isHalted = true → answer = .ok last.state) ∧
    (last.isHalted = false → answer = .error ⟨limit⟩ ∧ last.abortedFrom = none ∧
      ∃ applied, applied.length = limit ∧ last.history = machine.history ++ applied) ∧
    (∀ further, (last.runLimit further).2 = (machine.runLimit (limit + further)).2 ∧
      ∀ state, (last.runLimit further).1 = .ok state ↔ (machine.runLimit (limit + further)).1 = .ok state) ∧
    ∀ state, answer = .ok state →
      (∀ larger, limit ≤ larger → machine.runLimit larger = (.ok state, last)) ∧
        machine.run = some last ∧ last.state = state := by
  intro answer last
  have isLast : last = advance^[limit] machine := machine.runLimit_snd limit
  refine ⟨isLast.trans (calls_step_snd limit machine).symm, ?_, ?_, ?_, ?_⟩
  · intro halted
    rw [isLast] at halted ⊢
    exact runLimit_eq_ok_iff.mpr ⟨halted, rfl⟩
  · intro running
    rw [isLast] at running ⊢
    refine ⟨congrArg Prod.fst (runLimit_of_running running), ?_, history_iterate running⟩
    exact (reachable.normal.consistent.iterate limit).abortedFrom_eq_none running
  · intro further
    have together : advance^[further] last = advance^[limit + further] machine := by
      rw [isLast, ← Function.iterate_add_apply, Nat.add_comm]
    refine ⟨by rw [runLimit_snd, runLimit_snd, together], fun state => ?_⟩
    rw [runLimit_eq_ok_iff, runLimit_eq_ok_iff, together]
  · intro state answered
    obtain ⟨halted, isState⟩ := runLimit_eq_ok_iff.mp answered
    refine ⟨?_, ?_, ?_⟩
    · intro larger above
      have same := iterate_advance_of_le halted above
      rw [isLast, ← isState, ← same]
      exact runLimit_of_halted (by rw [same, halted])
    · rw [isLast]
      exact run_eq_some_of_halted halted
    · rw [isLast, isState]

/-- The second step from here aborts: a limit of one ends before it, and a limit of two just behind it. -/
theorem bounded_runs_compose_aborting :
    let fresh := start ⟨[⟨"q", '0', '1', .right, "q"⟩]⟩ "00" "q"
    Reachable fresh.advance ∧
      ((fresh.advance.runLimit 1).2.isHalted = false ∧ (fresh.advance.runLimit 1).1 = .error ⟨1⟩ ∧
        (fresh.advance.runLimit 1).2.history.length = fresh.advance.history.length + 1) ∧
      ((fresh.advance.runLimit 2).2.isHalted = true ∧ (fresh.advance.runLimit 2).1 = .ok "halt-abort") ∧
      (2 ≤ 9 ∧ fresh.advance.runLimit 9 = fresh.advance.runLimit 2) ∧
      ((fresh.advance.runLimit 1).2.runLimit 1).1 = .ok "halt-abort" ∧
      fresh.advance.run = some (fresh.advance.runLimit 2).2 := by
  intro fresh
  have built : ofTable? fresh.table "00" none = some fresh := rfl
  have moved : Reachable fresh.advance := .operate .step (.ofTable built)
  obtain ⟨_, _, unfinished, further, _⟩ := bounded_runs_compose moved 1
  obtain ⟨_, finished, _, _, same⟩ := bounded_runs_compose moved 2
  have running : (fresh.advance.runLimit 1).2.isHalted = false := by decide
  have halted : (fresh.advance.runLimit 2).2.isHalted = true := by decide
  have aborted : (fresh.advance.runLimit 2).2.state = "halt-abort" := by decide
  obtain ⟨exceeded, _, applied, length, grown⟩ := unfinished running
  have answered : (fresh.advance.runLimit 2).1 = .ok "halt-abort" := by rw [finished halted, aborted]
  obtain ⟨larger, run, _⟩ := same "halt-abort" answered
  refine ⟨moved, ⟨running, exceeded, ?_⟩, ⟨halted, answered⟩, ⟨by decide, ?_⟩, ?_, run⟩
  · rw [grown, List.length_append, length]
  · rw [larger 9 (by decide), ← answered]
  · exact ((further 1).2 "halt-abort").mpr answered

end TapeMachine.Machine
