import TapeMachine.Program

namespace TapeMachine.Program

/-- Adds one to a binary number. The head ends on the first digit. -/
def binaryIncrement : Program where
  name := "binary-increment"
  tape := "1011"
  transitions := "\n".intercalate
    ["right 0 0 r right", "right 1 1 r right", "right _ _ l carry",
     "carry 1 0 l carry", "carry 0 1 l done", "carry _ 1 l done",
     "done 0 0 l done", "done 1 1 l done", "done _ _ r halt-accept"]
  initialState := none
  mode := .strict

/-- Accepts the words with an even number of zeros. -/
def evenZeros : Program where
  name := "even-zeros"
  tape := "1001"
  transitions := "\n".intercalate
    ["even 0 0 r odd", "even 1 1 r even", "even _ _ r halt-accept",
     "odd 0 0 r even", "odd 1 1 r odd", "odd _ _ r halt-reject"]
  initialState := none
  mode := .strict

/-- Adds two numbers written as strokes. -/
def unaryAddition : Program where
  name := "unary-addition"
  tape := "111+11"
  transitions := "\n".intercalate
    ["scan 1 1 r scan", "scan + 1 r seek", "seek 1 1 r seek", "seek _ _ l erase",
     "erase 1 _ l back", "back 1 1 l back", "back _ _ r halt-accept"]
  initialState := none
  mode := .strict

/-- The programs that need no file. -/
def catalog : List Program := [binaryIncrement, evenZeros, unaryAddition]

inductive LookupError where
  | indexOutOfRange (index : Nat)
  | unknownName (name : String)
deriving DecidableEq

def LookupError.message : LookupError → String
  | indexOutOfRange index => s!"Program validation error: Program index {index} out of range"
  | unknownName name => s!"Program validation error: Program '{name}' not found"

def byIndex (index : Nat) : Except LookupError Program :=
  match catalog[index]? with
  | some program => .ok program
  | none => .error (.indexOutOfRange index)

def byName (name : String) : Except LookupError Program :=
  match catalog.find? (·.name = name) with
  | some program => .ok program
  | none => .error (.unknownName name)

/-- A program at a glance. States count as starts and as ends of rules. -/
structure Summary where
  name : String
  initialState : State
  tape : String
  stateCount : Nat
  ruleCount : Nat

def summary (program : Program) : Summary :=
  let table := Table.ofText program.transitions
  { name := program.name
    initialState := (program.initialState <|> table.initialState?).getD ""
    tape := program.tape
    stateCount := table.states.length
    ruleCount := table.rules.length }

end TapeMachine.Program
