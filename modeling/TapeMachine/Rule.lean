import TapeMachine.Direction
import TapeMachine.State
import TapeMachine.Symbol

namespace TapeMachine

/-- In state `start` under the symbol `read`: write, move the head, and enter `next`. -/
structure Rule where
  start : State
  read : Symbol
  write : Symbol
  move : Direction
  next : State
deriving DecidableEq

def Rule.matches (rule : Rule) (state : State) (symbol : Symbol) : Bool :=
  rule.start = state && rule.read = symbol

/-- The five components with one space between them. -/
def Rule.text (rule : Rule) : String :=
  " ".intercalate
    [rule.start, rule.read.toString, rule.write.toString, rule.move.token, rule.next]

end TapeMachine
