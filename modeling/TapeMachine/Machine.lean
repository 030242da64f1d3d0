import TapeMachine.Halt
import TapeMachine.Step
import TapeMachine.Table
import TapeMachine.Tape

namespace TapeMachine

/-- A machine in the middle of a computation. `trail` holds the positions of the applied rules, the
latest first, and `abortedFrom` the state that an abort left. -/
structure Machine where
  state : State
  initialState : State
  input : String
  tape : Tape
  head : Int
  table : Table
  trail : List Nat
  abortedFrom : Option State
deriving DecidableEq

namespace Machine

/-- A machine that has not moved. -/
def start (table : Table) (input : String) (initialState : State) : Machine :=
  { state := initialState, initialState, input, tape := Tape.ofString input, head := 0, table
    trail := [], abortedFrom := none }

/-- The machine for a table on an input. An initial state without a name stands for none, and then
the first rule says where to start. -/
def ofTable? (table : Table) (input : String) (initialState : Option State) : Option Machine :=
  (initialState.filter (· ≠ "") <|> table.initialState?).map (start table input)

def symbol (machine : Machine) : Symbol := machine.tape.read machine.head

def isHalted (machine : Machine) : Bool := machine.state.isTerminal

def halt? (machine : Machine) : Option Halt := Halt.ofState? machine.state

/-- The positions of the applied rules, the earliest first. -/
def history (machine : Machine) : List Nat := machine.trail.reverse

def stepCount (machine : Machine) : Nat := machine.trail.length

/-- The first rule for the state and the symbol under the head, unless the machine has halted. -/
def nextRule? (machine : Machine) : Option Rule :=
  if machine.isHalted then none
  else (machine.table.find? machine.state machine.symbol).map (·.2)

/-- What a forward step is going to do. -/
inductive Action where
  | stay
  | abort (reason : Abort)
  | apply (index : Nat) (rule : Rule) (offset : Int)

def action (machine : Machine) : Action :=
  if machine.isHalted then .stay
  else match machine.table.find? machine.state machine.symbol with
    | none => .abort (.undefinedTransition machine.state machine.symbol)
    | some (index, rule) =>
      match rule.move.offset? with
      | none => .abort (.invalidDirection index rule.move.token)
      | some offset => .apply index rule offset

def perform (machine : Machine) : Action → Machine
  | .stay => machine
  | .abort _ =>
    { machine with state := Halt.abort.state, abortedFrom := some machine.state }
  | .apply index rule offset =>
    { machine with
      state := rule.next
      tape := machine.tape.write machine.head rule.write
      head := machine.head + offset
      trail := index :: machine.trail }

/-- The outcome of an action that led to `machine`. -/
def outcome (machine : Machine) : Action → Step
  | .stay => .halted machine.state
  | .abort reason => .aborted reason
  | .apply _ rule _ => .applied machine.tape.toList machine.head machine.isHalted rule

/-- The machine after one forward step. -/
def advance (machine : Machine) : Machine := machine.perform machine.action

def step (machine : Machine) : Step × Machine :=
  (machine.advance.outcome machine.action, machine.advance)

def reverted (machine : Machine) : Step :=
  .reverted machine.tape.toList machine.head machine.isHalted

/-- The machine before `rule` was applied, given the machine after it: the head goes back, and the
symbol that the rule read is there again. -/
def unapply (machine : Machine) (rule : Rule) : Machine :=
  let head := machine.head + ((rule.move.reverse?.bind Direction.offset?).getD 0)
  { machine with state := rule.start, tape := machine.tape.write head rule.read, head }

/-- Undoes an abort, or else the latest rule. -/
def back (machine : Machine) : Step × Machine :=
  match machine.abortedFrom, machine.trail with
  | some state, _ =>
    let machine := { machine with state, abortedFrom := none }
    (machine.reverted, machine)
  | none, [] => (.noOp, machine)
  | none, index :: trail =>
    let machine := { machine with trail }
    match machine.table.get? index with
    | none => (.noOp, machine)
    | some rule => ((machine.unapply rule).reverted, machine.unapply rule)

/-- The machine on its last input, before the first step. -/
def reset (machine : Machine) : Machine := start machine.table machine.input machine.initialState

def setTape (machine : Machine) (input : String) : Machine :=
  start machine.table input machine.initialState

end Machine

end TapeMachine
