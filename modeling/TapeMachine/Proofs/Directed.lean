import TapeMachine.Proofs.NormalForm
import TapeMachine.Proofs.Verdict

namespace TapeMachine.Machine

theorem step_ne_invalidDirection {machine : Machine} (directed : machine.table.Directed) (index : Nat) (token : String) :
    machine.step.1 ≠ .aborted (.invalidDirection index token) := by
  intro answered
  cases acts_of_aborted answered with
  | invalid _ first move =>
    exact Direction.offset?_eq_none_iff.mp move (directed _ (List.mem_of_getElem? first.atIndex))

theorem back_ne_aborted (machine : Machine) (reason : Abort) : machine.back.1 ≠ .aborted reason := by
  unfold back
  split
  · exact nofun
  · exact nofun
  · dsimp only
    split <;> exact nofun

/-- Only a step is answered by an abort, and its reason is one that the table gives. -/
theorem aborted_not_mem_replies {machine : Machine} {reason : Abort}
    (never : ∀ other : Machine, other.table = machine.table → other.step.1 ≠ .aborted reason)
    (operations : List Operation) : .stepped (.aborted reason) ∉ machine.replies operations := by
  induction operations generalizing machine with
  | nil => exact List.not_mem_nil
  | cons operation operations ih =>
    rw [replies, List.mem_cons]
    rintro (here | later)
    · cases operation with
      | step => exact never machine rfl (Reply.stepped.inj here).symm
      | back => exact back_ne_aborted machine reason (Reply.stepped.inj here).symm
      | _ => cases here
    · refine ih (fun other same => never other ?_) later
      rw [same, table_operate]

/-- Where every rule has a direction, nothing that is done with the machine is answered by an abort for
want of one. -/
theorem invalidDirection_not_mem_replies {machine : Machine} (directed : machine.table.Directed)
    (operations : List Operation) (index : Nat) (token : String) :
    .stepped (.aborted (.invalidDirection index token)) ∉ machine.replies operations := by
  refine aborted_not_mem_replies (fun other same => ?_) operations
  rw [← same] at directed
  exact step_ne_invalidDirection directed index token

end TapeMachine.Machine
