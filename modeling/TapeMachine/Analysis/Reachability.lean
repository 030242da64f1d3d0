import TapeMachine.Table

namespace TapeMachine.Table

/-- The states that one rule leads to from `state`. -/
def successors (table : Table) (state : State) : List State :=
  (table.rules.filter fun rule => rule.start = state).map (·.next)

/-- Visits the pending states and what they lead to. A state is left out once it has been visited.
Each of the `rounds` takes one pending state, and the answer holds the states that no round took. -/
def explore (table : Table) : Nat → List State → List State → List State × List State
  | 0, visited, pending => (visited, pending)
  | _ + 1, visited, [] => (visited, [])
  | rounds + 1, visited, state :: pending =>
    if state ∈ visited then explore table rounds visited pending
    else
      let visited := state :: visited
      let fresh := (table.successors state).filter (· ∉ visited)
      explore table rounds visited (fresh.reverse ++ pending)

/-- The states that a chain of rules leads to from `initial`, terminal states on the way included.
A rule makes its end pending at most once, so one round for each rule and one for `initial` is
enough. -/
def reachable (table : Table) (initial : State) : List State :=
  (table.explore (table.rules.length + 1) [] [initial]).1

end TapeMachine.Table
