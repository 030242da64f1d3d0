import TapeMachine.Json.Value
import TapeMachine.Json.Variant
import TapeMachine.Program

namespace TapeMachine

open Json

namespace Mode

def all : List Mode := [normal, strict]

def name : Mode → String
  | normal => "Normal"
  | strict => "Strict"

def ofName? (name : String) : Option Mode := all.find? fun mode => mode.name = name

def json (mode : Mode) : Value := .string mode.name

def variants : Variants Mode where
  names := all.map name
  payload name := (ofName? name).map fun mode node => (fun _ => mode) <$> node.decodeUnit
  unit := ofName?

def decode : Node → Decoded Mode := variants.decode

end Mode

namespace Program

def json (program : Program) : Value :=
  .object [("name", .string program.name), ("tape", .string program.tape),
    ("transitions", .string program.transitions),
    ("initial_state", (program.initialState.map Value.string).getD .null),
    ("mode", program.mode.json)]

/-- An initial state may be left out as null or as a state without a name. -/
def decodeInitialState : Node → Decoded (Option State)
  | .null => .ok none
  | node => do
    let state ← node.decodeString
    return if state = "" then none else some state

/-- The fields of a program that have been read so far. -/
structure Draft where
  name : Option String := none
  tape : Option String := none
  transitions : Option String := none
  initialState : Option (Option State) := none
  mode : Option Mode := none

namespace Draft

/-- The initial state has two names, and goes by the first one in faults. -/
def take (draft : Draft) (name : String) (node : Node) : Decoded Draft := do
  match name with
  | "name" => return { draft with name := ← fill name draft.name node.decodeString }
  | "tape" => return { draft with tape := ← fill name draft.tape node.decodeString }
  | "transitions" =>
    return { draft with transitions := ← fill name draft.transitions node.decodeString }
  | "initial_state" | "initialState" =>
    return { draft with
      initialState := ← fill "initial_state" draft.initialState (decodeInitialState node) }
  | "mode" => return { draft with mode := ← fill name draft.mode (Mode.decode node) }
  | _ => node.skip; return draft

/-- A field that is not given is empty, unset or normal. -/
def finish (draft : Draft) : Program :=
  { name := draft.name.getD ""
    tape := draft.tape.getD ""
    transitions := draft.transitions.getD ""
    initialState := draft.initialState.getD none
    mode := draft.mode.getD .normal }

end Draft

def record : Record Program where
  expected := "struct Program"
  ofItems list := do
    let (name, list) ← list.nextD Node.decodeString ""
    let (tape, list) ← list.nextD Node.decodeString ""
    let (transitions, list) ← list.nextD Node.decodeString ""
    let (initialState, list) ← list.nextD decodeInitialState none
    let (mode, list) ← list.nextD Mode.decode .normal
    return ({ name, tape, transitions, initialState, mode }, list)
  ofMembers members stop := Draft.finish <$> foldMembers Draft.take stop {} members

def decode : Node → Decoded Program := record.decode

/-- The program that a JSON text describes. -/
def ofJson (text : String) : Decoded Program := decodeText decode text

end Program

end TapeMachine
