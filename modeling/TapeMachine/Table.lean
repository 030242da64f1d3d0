import TapeMachine.Rule
import TapeMachine.Text.Names

namespace TapeMachine

/-- Rules in order. A rule is known by its position, and earlier rules win. -/
structure Table where
  rules : List Rule
deriving DecidableEq

namespace Table

/-- The first rule for a state and a symbol, with its position. -/
def find? (table : Table) (state : State) (symbol : Symbol) : Option (Nat × Rule) := do
  let index ← table.rules.findIdx? (·.matches state symbol)
  let rule ← table.rules[index]?
  return (index, rule)

def get? (table : Table) (index : Nat) : Option Rule := table.rules[index]?

/-- A machine starts where its first rule starts, unless it is told otherwise. -/
def initialState? (table : Table) : Option State := table.rules.head?.map (·.start)

/-- Every state that a rule leaves or enters. -/
def states (table : Table) : List State :=
  Text.sortedNames (table.rules.flatMap fun rule => [rule.start, rule.next])

/-- One line for each rule, with no line feed at the end. -/
def text (table : Table) : String := "\n".intercalate (table.rules.map Rule.text)

end Table

end TapeMachine
