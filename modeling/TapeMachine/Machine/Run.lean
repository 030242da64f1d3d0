import TapeMachine.Machine

namespace TapeMachine

/-- A bounded run that ended before the machine did. -/
structure StepLimitExceeded where
  limit : Nat
deriving DecidableEq

def StepLimitExceeded.message (fault : StepLimitExceeded) : String :=
  s!"Machine did not halt within {fault.limit} steps"

namespace Machine

/-- At most `limit` forward steps, and none after the machine has halted. -/
def advanceUpTo : Nat → Machine → Machine
  | 0, machine => machine
  | limit + 1, machine =>
    if machine.isHalted then machine else advanceUpTo limit machine.advance

/-- Runs for at most `limit` steps. The machine keeps what it has done even if that does not halt
it. -/
def runLimit (machine : Machine) (limit : Nat) : Except StepLimitExceeded State × Machine :=
  let machine := advanceUpTo limit machine
  (if machine.isHalted then .ok machine.state else .error ⟨limit⟩, machine)

/-- Runs until the machine halts. There is no answer if it never does. -/
def run (machine : Machine) : Option Machine :=
  if machine.isHalted then some machine else machine.advance |>.run
partial_fixpoint

end Machine

end TapeMachine
