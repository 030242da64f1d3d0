import TapeMachine.Analysis.Defect
import TapeMachine.Analysis.Reachability
import TapeMachine.Halt

namespace TapeMachine.Table

def numbered (table : Table) : List NumberedRule :=
  table.rules.zipIdx.map fun (rule, index) => ⟨index, rule⟩

/-- Passes over the rules once. `seen` holds the state and the symbol of each earlier rule that is
the first of its kind, with its position. -/
def shadowingsFrom (seen : List ((State × Symbol) × Nat)) (index : Nat) :
    List Rule → List Shadowing
  | [] => []
  | rule :: rest =>
    match seen.lookup (rule.start, rule.read) with
    | some first => ⟨index, first, rule⟩ :: shadowingsFrom seen (index + 1) rest
    | none => shadowingsFrom (((rule.start, rule.read), index) :: seen) (index + 1) rest

def shadowings (table : Table) : List Shadowing := shadowingsFrom [] 0 table.rules

def ambiguity? (table : Table) : Option Defect :=
  let found := table.shadowings
  if found.isEmpty then none else some (.ambiguous found)

def directionDefect? (table : Table) : Option Defect :=
  let found := table.numbered.filter fun numbered => numbered.rule.move.offset?.isNone
  if found.isEmpty then none else some (.invalidDirections found)

/-- A computation starts in a terminal state or where some rule does. -/
def startDefect? (table : Table) (initial : State) : Option Defect :=
  if initial.isTerminal || table.rules.any (·.start = initial) then none
  else some (.invalidStart initial)

def terminalDefect? (table : Table) : Option Defect :=
  let found := table.numbered.filter fun numbered => numbered.rule.start.isTerminal
  if found.isEmpty then none else some (.leavesTerminal found)

/-- The states with rules that no chain of rules leads to from `initial`. Terminal states are never
among them. -/
def unreachable (table : Table) (initial : State) : List State :=
  let reached := table.reachable initial
  Text.sortedNames
    ((table.rules.map (·.start)).filter fun state => !State.isTerminal state && state ∉ reached)

def reachabilityDefect? (table : Table) (initial : State) : Option Defect :=
  let found := table.unreachable initial
  if found.isEmpty then none else some (.unreachable found)

/-- The first defect in this order, if there is any. -/
def defect? (table : Table) (initial : State) : Option Defect :=
  table.ambiguity? <|> table.directionDefect? <|> table.startDefect? initial <|>
    table.terminalDefect? <|> table.reachabilityDefect? initial

end TapeMachine.Table
