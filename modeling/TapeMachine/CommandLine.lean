import TapeMachine.CommandLine.Options
import TapeMachine.CommandLine.Trace
import TapeMachine.Program.Catalog
import TapeMachine.Program.Load

namespace TapeMachine.CommandLine

/-- Why there is no result. -/
inductive RunError where
  | load (error : Program.LoadError)
  | lookup (error : Program.LookupError)
  | input (fault : ReadFault)
  | build (error : Program.BuildError)
  | limit (error : StepLimitExceeded)

def RunError.message : RunError → String
  | load error => error.message
  | lookup error => error.message
  | input fault => s!"File error: Failed to read stdin: {fault.message}"
  | build error => error.message
  | limit error => error.message

/-- Where the rules come from. -/
inductive Source where
  | file (path : String)
  | builtin (name : String)
  | rules (lines : List String)
  | input

/-- A program file comes first, then a built-in program, then rules among the arguments. Without any
of these the rules are the standard input, which is a file or a pipe: that of a terminal is left out. -/
def Options.source (options : Options) : Source :=
  match options.program, options.builtin, options.rules with
  | some path, _, _ => .file path
  | none, some name, _ => .builtin name
  | none, none, [] => .input
  | none, none, rules => .rules rules

/-- The program of a source. `content` is what the file or the standard input holds. -/
def Source.program (source : Source) (content : Content) : Except RunError Program :=
  match source with
  | .file path => (Program.ofFile path content).mapError .load
  | .builtin name => (Program.byName name).mapError .lookup
  | .rules lines => .ok (Program.ofTransitions ("\n".intercalate lines))
  | .input => ((Content.text content).map Program.ofTransitions).mapError .input

/-- The options replace parts of the program. -/
def Options.override (options : Options) (program : Program) : Program :=
  let program := { program with
    tape := options.tape.getD program.tape
    mode := if options.strict then .strict else program.mode }
  match options.initialState with
  | some state => program.withInitialState state
  | none => program

/-- What the user sees: the lines of both streams, and the exit code. What a log filter other than the
default lets through besides, with the time of day, is left out. -/
structure Outcome where
  exit : Nat
  output : List String
  errors : List String
deriving DecidableEq

def Outcome.failed (output : List String) (error : RunError) : Outcome :=
  ⟨2, output, [s!"Error: {error.message}"]⟩

def exitCode : Halt → Nat
  | .accept => 0
  | .reject | .abort => 1

/-- Shows where a machine has ended, below the lines of the trace if there is one. An empty line stands
between them if both are plain text. -/
def finish (options : Options) (trace : List String) (machine : Machine) : Outcome :=
  let gap := if options.debug && !options.json then [""] else []
  match machine.halt? with
  | none => .failed trace (.limit ⟨options.maxSteps⟩)
  | some halt => ⟨exitCode halt, trace ++ gap ++ resultLines options.json machine, []⟩

/-- Runs a machine, step by step if every step is to be shown. -/
def runMachine (options : Options) (machine : Machine) : Outcome :=
  if options.debug then
    let (steps, last) := machine.trace options.maxSteps
    finish options (traceLines options.json machine steps) last
  else match machine.runLimit options.maxSteps with
    | (.error fault, _) => .failed [] (.limit fault)
    | (.ok _, last) => finish options [] last

def buildMachine (options : Options) (content : Content) : Except RunError Machine := do
  let program ← options.source.program content
  (options.override program).machine.mapError .build

/-- The whole program, given what the file or the standard input holds that the options name. -/
def run (options : Options) (content : Content) : Outcome :=
  if options.list then ⟨0, Program.catalog.map (·.name), []⟩
  else match buildMachine options content with
    | .error error => .failed [] error
    | .ok machine => runMachine options machine

/-- The exit code for arguments that make no sense. What is said about them is left out. -/
def usageExit : Nat := 2

end TapeMachine.CommandLine
