import TapeMachine.State
import TapeMachine.Symbol

namespace TapeMachine

/-- Why a forward step ended the computation. -/
inductive Abort where
  | undefinedTransition (state : State) (symbol : Symbol)
  | invalidDirection (index : Nat) (token : String)
deriving DecidableEq

def Abort.message : Abort → String
  | undefinedTransition state symbol => s!"no rule defined for state {state} and symbol '{symbol}'"
  | invalidDirection index token => s!"rule #{index} has invalid direction '{token}'"

end TapeMachine
