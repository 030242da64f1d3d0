import TapeMachine.Rule
import TapeMachine.Text.Quoted

namespace TapeMachine

/-- A rule that can never fire, because an earlier one has the same state and symbol. -/
structure Shadowing where
  index : Nat
  first : Nat
  rule : Rule
deriving DecidableEq

def Shadowing.text (shadowing : Shadowing) : String :=
  s!"#{shadowing.index} shadowed by #{shadowing.first}: {shadowing.rule.text}"

/-- A rule with its position in the table. -/
structure NumberedRule where
  index : Nat
  rule : Rule
deriving DecidableEq

def NumberedRule.text (numbered : NumberedRule) : String :=
  s!"#{numbered.index}: {numbered.rule.text}"

/-- What can be wrong with a table and the state that it is started in. -/
inductive Defect where
  | ambiguous (shadowings : List Shadowing)
  | invalidDirections (rules : List NumberedRule)
  | invalidStart (state : State)
  | leavesTerminal (rules : List NumberedRule)
  | unreachable (states : List State)
deriving DecidableEq

def Defect.message : Defect → String
  | ambiguous shadowings =>
    "Ambiguous transitions for the same state and symbol: " ++
      Text.quotedList (shadowings.map Shadowing.text)
  | invalidDirections rules =>
    "Transitions with invalid directions: " ++ Text.quotedList (rules.map NumberedRule.text)
  | invalidStart state => s!"Invalid start state: {state}"
  | leavesTerminal rules =>
    "Transitions leaving a terminal state: " ++ Text.quotedList (rules.map NumberedRule.text)
  | unreachable states => "Unreachable states detected: " ++ Text.quotedList states

end TapeMachine
