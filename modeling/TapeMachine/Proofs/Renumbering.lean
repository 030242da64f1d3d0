import TapeMachine.Proofs.NormalForm

namespace TapeMachine

/-- On the states `within`, which no rule leaves, the other table finds the same rules first, at the
positions that `rename` says. -/
structure Table.Renumbering (table other : Table) (rename : Nat → Nat) (within : State → Prop) : Prop where
  closed : ∀ rule ∈ table.rules, within rule.start → within rule.next
  firstMatch : ∀ {state symbol index rule}, within state → state.isTerminal = false →
    table.FirstMatch state symbol index rule → other.FirstMatch state symbol (rename index) rule
  unfit : ∀ {state symbol}, within state → state.isTerminal = false →
    (¬ ∃ rule ∈ table.rules, rule.Fits state symbol) → ¬ ∃ rule ∈ other.rules, rule.Fits state symbol

def Abort.renumber (rename : Nat → Nat) : Abort → Abort
  | undefinedTransition state symbol => .undefinedTransition state symbol
  | invalidDirection index token => .invalidDirection (rename index) token

/-- What a step answers when the rules stand elsewhere: only an abort tells the position of one. -/
def Step.renumber (rename : Nat → Nat) : Step → Step
  | aborted reason => .aborted (reason.renumber rename)
  | step => step

def Reply.renumber (rename : Nat → Nat) : Reply → Reply
  | stepped step => .stepped (step.renumber rename)
  | reply => reply

namespace Machine

def Action.renumber (rename : Nat → Nat) : Action → Action
  | stay => .stay
  | abort reason => .abort (reason.renumber rename)
  | apply index rule offset => .apply (rename index) rule offset

/-- The same machine on a table that has its rules elsewhere. -/
def renumber (other : Table) (rename : Nat → Nat) (machine : Machine) : Machine :=
  { machine with table := other, trail := machine.trail.map rename }

section

variable (other : Table) (rename : Nat → Nat)

theorem perform_renumber (machine : Machine) (action : Action) :
    (machine.renumber other rename).perform (action.renumber rename) = (machine.perform action).renumber other rename := by
  cases action <;> rfl

theorem outcome_renumber (machine : Machine) (action : Action) :
    (machine.renumber other rename).outcome (action.renumber rename) = (machine.outcome action).renumber rename := by
  cases action <;> rfl

theorem clock_renumber (machine : Machine) : (machine.renumber other rename).clock = machine.clock := by
  rw [clock, clock, stepCount, stepCount, renumber, List.length_map]

end

/-- A machine in use on a table, all of whose rules so far the other table has as well. -/
structure Tracked (table other : Table) (rename : Nat → Nat) (within : State → Prop) (machine : Machine) : Prop where
  normal : machine.Normal
  onTable : machine.table = table
  begins : within machine.initialState
  running : machine.isHalted = false → within machine.state
  named : ∀ index ∈ machine.trail, ∃ rule, table.get? index = some rule ∧ other.get? (rename index) = some rule

namespace Tracked

variable {table other : Table} {rename : Nat → Nat} {within : State → Prop} {machine : Machine}

theorem start {initial : State} (begins : within initial) (input : String) :
    Tracked table other rename within (start table input initial) :=
  ⟨.start table input initial, rfl, begins, fun _ => begins, fun _ member => absurd member List.not_mem_nil⟩

variable (renumbering : table.Renumbering other rename within)
include renumbering

theorem advance (tracked : Tracked table other rename within machine) :
    Tracked table other rename within machine.advance := by
  cases halted : machine.isHalted with
  | true => rwa [advance_of_halted halted]
  | false =>
    have inside := tracked.running halted
    have onTable : machine.advance.table = table := (table_advance machine).trans tracked.onTable
    have begins : within machine.advance.initialState := by
      have same : machine.advance.initialState = machine.initialState := initialState_operate machine .step
      rw [same]
      exact tracked.begins
    rcases advance_of_running halted with ⟨reason, next⟩ | ⟨index, rule, offset, first, _, next⟩
    · refine ⟨tracked.normal.advance, onTable, begins, ?_, ?_⟩
      · intro running
        rw [next, isHalted, perform, Halt.isTerminal_state] at running
        contradiction
      · rw [next]
        exact tracked.named
    · rw [tracked.onTable] at first
      refine ⟨tracked.normal.advance, onTable, begins, ?_, ?_⟩
      · intro _
        rw [next]
        exact renumbering.closed rule (List.mem_of_getElem? first.atIndex) (first.fits.1.symm ▸ inside)
      · rw [next]
        intro position member
        rcases List.mem_cons.mp member with rfl | earlier
        · exact ⟨rule, first.atIndex, (renumbering.firstMatch inside halted first).atIndex⟩
        · exact tracked.named position earlier

theorem iterate (tracked : Tracked table other rename within machine) (count : Nat) :
    Tracked table other rename within (Machine.advance^[count] machine) := by
  induction count with
  | zero => exact tracked
  | succ count ih =>
    rw [Function.iterate_succ_apply']
    exact ih.advance renumbering

theorem action_renumber (tracked : Tracked table other rename within machine) :
    (machine.renumber other rename).action = machine.action.renumber rename := by
  apply Acts.action_eq
  have acts := machine.acts
  generalize machine.action = action at acts
  cases acts with
  | stay halted => exact .stay halted
  | undefined running unfit =>
    rw [tracked.onTable] at unfit
    exact .undefined running (renumbering.unfit (tracked.running running) running unfit)
  | invalid running first move =>
    rw [tracked.onTable] at first
    exact .invalid running (renumbering.firstMatch (tracked.running running) running first) move
  | apply running first move =>
    rw [tracked.onTable] at first
    exact .apply running (renumbering.firstMatch (tracked.running running) running first) move

theorem advance_renumber (tracked : Tracked table other rename within machine) :
    (machine.renumber other rename).advance = machine.advance.renumber other rename := by
  rw [Machine.advance, tracked.action_renumber renumbering, perform_renumber]
  rfl

theorem step_renumber (tracked : Tracked table other rename within machine) :
    (machine.renumber other rename).step =
      (machine.step.1.renumber rename, machine.step.2.renumber other rename) := by
  simp only [step, tracked.advance_renumber renumbering, tracked.action_renumber renumbering, outcome_renumber]

theorem iterate_renumber (tracked : Tracked table other rename within machine) (count : Nat) :
    Machine.advance^[count] (machine.renumber other rename) =
      (Machine.advance^[count] machine).renumber other rename := by
  induction count with
  | zero => rfl
  | succ count ih =>
    rw [Function.iterate_succ_apply', Function.iterate_succ_apply', ih,
      (tracked.iterate renumbering count).advance_renumber renumbering]

/-- Any number of forward steps answers the same, up to the position of a rule without a direction. -/
theorem calls_step_renumber (tracked : Tracked table other rename within machine) (count : Nat) :
    calls step count (machine.renumber other rename) =
      ((calls step count machine).1.map (Step.renumber rename), (calls step count machine).2.renumber other rename) := by
  induction count generalizing machine with
  | zero => rfl
  | succ count ih =>
    have trackedNext : Tracked table other rename within machine.step.2 := tracked.advance renumbering
    have later := ih trackedNext
    simp only [calls, tracked.step_renumber renumbering, later, List.map_cons]

/-- An abort for want of a direction names one rule, whichever table it is looked up in. -/
theorem named_of_invalidDirection (tracked : Tracked table other rename within machine) {count index : Nat} {token : String}
    (answered : .aborted (.invalidDirection index token) ∈ (calls step count machine).1) :
    ∃ rule, table.get? index = some rule ∧ other.get? (rename index) = some rule := by
  induction count generalizing machine with
  | zero => exact absurd answered List.not_mem_nil
  | succ count ih =>
    have answers : (calls step (count + 1) machine).1 = machine.step.1 :: (calls step count machine.advance).1 := rfl
    rw [answers] at answered
    rcases List.mem_cons.mp answered with now | later
    · cases acts_of_aborted now.symm with
      | invalid running first move =>
        rw [tracked.onTable] at first
        exact ⟨_, first.atIndex, (renumbering.firstMatch (tracked.running running) running first).atIndex⟩
    · exact ih (tracked.advance renumbering) later

/-- Going back visits a machine that the steps had come from, and so it cannot tell the tables apart. -/
theorem back_renumber (tracked : Tracked table other rename within machine) :
    Tracked table other rename within machine.back.2 ∧
      (machine.renumber other rename).back =
        (machine.back.1.renumber rename, machine.back.2.renumber other rename) := by
  cases behind : machine.clock with
  | zero =>
    have zero : (machine.renumber other rename).clock = 0 := by rw [clock_renumber, behind]
    rw [back_of_clock_eq_zero behind, back_of_clock_eq_zero zero]
    exact ⟨tracked, rfl⟩
  | succ count =>
    obtain ⟨before, normal, running, clock, reset, reached, undone⟩ := tracked.normal.previous behind
    have trackedBefore : Tracked table other rename within before := by
      have position := normal
      rw [Normal, clock, reset] at position
      rw [position, Machine.reset, tracked.onTable]
      exact (start tracked.begins machine.input).iterate renumbering count
    have consistent : (before.renumber other rename).Consistent :=
      ⟨normal.consistent.tape, normal.consistent.aborted⟩
    have backOther := consistent.back_advance running
    rw [trackedBefore.advance_renumber renumbering, reached] at backOther
    rw [undone, backOther]
    exact ⟨trackedBefore, rfl⟩

theorem operate_renumber (tracked : Tracked table other rename within machine) (operation : Operation) :
    Tracked table other rename within (machine.operate operation) ∧
      (machine.renumber other rename).reply operation = (machine.reply operation).renumber rename ∧
      (machine.renumber other rename).operate operation = (machine.operate operation).renumber other rename := by
  cases operation with
  | step =>
    have same := tracked.step_renumber renumbering
    exact ⟨tracked.advance renumbering, by rw [reply, same]; rfl, by rw [operate, same]; rfl⟩
  | back =>
    obtain ⟨trackedBack, same⟩ := tracked.back_renumber renumbering
    exact ⟨trackedBack, by rw [reply, same]; rfl, by rw [operate, same]; rfl⟩
  | runLimit limit =>
    have same : advanceUpTo limit (machine.renumber other rename) =
        (advanceUpTo limit machine).renumber other rename := by
      rw [advanceUpTo_eq_iterate, advanceUpTo_eq_iterate, tracked.iterate_renumber renumbering]
    refine ⟨?_, ?_, same⟩
    · change Tracked table other rename within (advanceUpTo limit machine)
      rw [advanceUpTo_eq_iterate]
      exact tracked.iterate renumbering limit
    · simp only [reply, runLimit, same]
      rfl
  | setTape input =>
    refine ⟨?_, rfl, rfl⟩
    rw [operate, setTape, tracked.onTable]
    exact start tracked.begins input
  | reset =>
    refine ⟨?_, rfl, rfl⟩
    rw [operate, reset, tracked.onTable]
    exact start tracked.begins machine.input

/-- Whatever is done with them, a machine and its like on the other table stay alike. -/
theorem operateAll_renumber (tracked : Tracked table other rename within machine) (operations : List Operation) :
    Tracked table other rename within (machine.operateAll operations) ∧
      (machine.renumber other rename).replies operations =
        (machine.replies operations).map (Reply.renumber rename) ∧
      (machine.renumber other rename).operateAll operations =
        (machine.operateAll operations).renumber other rename := by
  induction operations generalizing machine with
  | nil => exact ⟨tracked, rfl, rfl⟩
  | cons operation operations ih =>
    obtain ⟨trackedNext, sameReply, sameNext⟩ := tracked.operate_renumber renumbering operation
    obtain ⟨trackedLast, sameReplies, sameLast⟩ := ih trackedNext
    refine ⟨trackedLast, ?_, ?_⟩
    · simp only [replies, sameReply, sameNext, sameReplies, List.map_cons]
    · rw [← sameNext] at sameLast
      exact sameLast

omit renumbering in
/-- The positions in both histories name the same rules, one by one. -/
theorem exists_rules (tracked : Tracked table other rename within machine) :
    ∃ rules : List Rule, machine.history.map table.get? = rules.map some ∧
      (machine.renumber other rename).history.map other.get? = rules.map some := by
  have named : ∀ index ∈ machine.history, ∃ rule, table.get? index = some rule ∧ other.get? (rename index) = some rule :=
    fun index member => tracked.named index (List.mem_reverse.mp member)
  have positions : (machine.renumber other rename).history = machine.history.map rename := by
    simp [history, renumber, List.map_reverse]
  rw [positions, List.map_map]
  generalize machine.history = indices at named
  induction indices with
  | nil => exact ⟨[], rfl, rfl⟩
  | cons index indices ih =>
    obtain ⟨rule, atIndex, atOther⟩ := named index (List.mem_cons_self ..)
    obtain ⟨rules, here, there⟩ := ih fun later member => named later (List.mem_cons_of_mem _ member)
    exact ⟨rule :: rules, by simp [atIndex, here], by simp [atOther, there]⟩

end Tracked

theorem ofTable?_of_named {initial : State} (named : initial ≠ "") (table : Table) (input : String) :
    ofTable? table input (some initial) = some (start table input initial) := by
  simp [ofTable?, Option.filter, named]

end Machine

end TapeMachine
