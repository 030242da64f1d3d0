import TapeMachine.Abort
import TapeMachine.Rule

namespace TapeMachine

/-- What one step did, forward or back. `applied` and `reverted` show the tape and the head as the
step left them. -/
inductive Step where
  | applied (tape : List Symbol) (head : Int) (isTerminal : Bool) (rule : Rule)
  | reverted (tape : List Symbol) (head : Int) (isTerminal : Bool)
  | halted (state : State)
  | aborted (reason : Abort)
  | noOp
deriving DecidableEq

/-- Whether the step changed the configuration. -/
def Step.isProgress : Step → Bool
  | applied .. | reverted .. | aborted _ => true
  | halted _ | noOp => false

end TapeMachine
