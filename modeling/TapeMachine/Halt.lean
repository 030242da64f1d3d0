import TapeMachine.State

namespace TapeMachine

/-- How a computation ends. Each ending is a state of a reserved name. -/
inductive Halt where
  | accept
  | reject
  | abort
deriving DecidableEq

def Halt.state : Halt → State
  | accept => "halt-accept"
  | reject => "halt-reject"
  | abort => "halt-abort"

def Halt.all : List Halt := [accept, reject, abort]

def Halt.ofState? (state : State) : Option Halt := Halt.all.find? fun halt => halt.state = state

def State.isTerminal (state : State) : Bool := (Halt.ofState? state).isSome

end TapeMachine
