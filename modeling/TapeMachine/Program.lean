import TapeMachine.Analysis
import TapeMachine.Machine
import TapeMachine.Table.Reading

namespace TapeMachine

/-- What it takes to build a machine: its input, its rules as text, and how strictly to read them.
Without an initial state the first rule says where to start. -/
structure Program where
  name : String
  tape : String
  transitions : String
  initialState : Option State
  mode : Mode
deriving DecidableEq

namespace Program

/-- A program of rules alone. -/
def ofTransitions (transitions : String) : Program :=
  { name := "", tape := "", transitions, initialState := none, mode := .normal }

/-- A state without a name stands for none. -/
def withInitialState (program : Program) (state : State) : Program :=
  { program with initialState := if state = "" then none else some state }

/-- Why no machine can be built from a program. -/
inductive BuildError where
  | malformedLine (fault : MalformedLine)
  | missingInitialState
  | defective (defect : Defect)
deriving DecidableEq

def BuildError.message : BuildError → String
  | malformedLine fault => fault.message
  | missingInitialState =>
    "Missing initial state: no transitions were parsed and none was given"
  | defective defect => "Program validation error: " ++ defect.message

/-- The machine for a program. A strict program must also be free of defects. -/
def machine (program : Program) : Except BuildError Machine := do
  let table ← (Table.ofTextIn program.mode program.transitions).mapError .malformedLine
  match Machine.ofTable? table program.tape program.initialState with
  | none => throw .missingInitialState
  | some machine =>
    if program.mode = .strict then
      match table.defect? machine.initialState with
      | some defect => throw (.defective defect)
      | none => return machine
    else return machine

end Program

end TapeMachine
