import TapeMachine.Json.Value
import TapeMachine.Machine.Run
import TapeMachine.Step.Json

namespace TapeMachine

/-- Runs for at most `limit` steps and keeps a record: every step with the machine after it, and the
machine after the last one. -/
def Machine.trace : Nat → Machine → List (Step × Machine) × Machine
  | 0, machine => ([], machine)
  | limit + 1, machine =>
    if machine.isHalted then ([], machine)
    else
      let (step, next) := machine.step
      let (later, last) := trace limit next
      ((step, next) :: later, last)

namespace CommandLine

open Json

def Configuration.line (machine : Machine) : String :=
  s!"Step: 0, State: {machine.state}, Head: {machine.head}, Tape: [{machine.tape.text}]"

def Configuration.json (machine : Machine) : Value :=
  .object [("head", .integer machine.head), ("state", .string machine.state),
    ("tape", .list (machine.tape.toList.map .symbol))]

/-- The line for a step that led to `machine`. Only rules and aborts have one. -/
def stepLine? (step : Step) (machine : Machine) : Option String :=
  match step with
  | .applied _ _ _ rule =>
    some (s!"Step: {machine.stepCount}, State: {machine.state}, Head: {machine.head}, " ++
      s!"Tape: [{machine.tape.text}], Rule: {rule.text}")
  | .aborted reason => some s!"Aborted: {reason.message}"
  | _ => none

/-- The configuration at the start and a line for each recorded step. -/
def traceLines (json : Bool) (machine : Machine) (steps : List (Step × Machine)) : List String :=
  if json then (Configuration.json machine).text :: steps.map fun (step, _) => step.json.text
  else Configuration.line machine :: steps.filterMap fun (step, machine) => stepLine? step machine

def resultJson (machine : Machine) : Value :=
  .object [("head", .integer machine.head), ("state", .string machine.state),
    ("steps", .integer machine.stepCount), ("tape", .string machine.tape.text)]

/-- How a halted machine is shown. -/
def resultLines (json : Bool) (machine : Machine) : List String :=
  if json then [(resultJson machine).text] else [machine.state, machine.tape.text]

end CommandLine

end TapeMachine
