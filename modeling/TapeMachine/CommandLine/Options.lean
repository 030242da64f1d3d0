namespace TapeMachine.CommandLine

/-- An option that takes a value. -/
inductive Setting where
  | program
  | builtin
  | rule
  | tape
  | initialState
  | maxSteps
deriving DecidableEq

/-- An option that takes none. -/
inductive Switch where
  | strict
  | debug
  | json
  | list
deriving DecidableEq

inductive Key where
  | setting (setting : Setting)
  | switch (switch : Switch)

def Key.ofLong? : String → Option Key
  | "program" => some (setting .program)
  | "builtin" => some (setting .builtin)
  | "rule" => some (setting .rule)
  | "tape" => some (setting .tape)
  | "initial-state" => some (setting .initialState)
  | "max-steps" => some (setting .maxSteps)
  | "strict" => some (switch .strict)
  | "debug" => some (switch .debug)
  | "json" => some (switch .json)
  | "list" => some (switch .list)
  | _ => none

def Key.ofShort? : Char → Option Key
  | 'p' => some (setting .program)
  | 'b' => some (setting .builtin)
  | 'r' => some (setting .rule)
  | 't' => some (setting .tape)
  | 's' => some (setting .initialState)
  | 'm' => some (setting .maxSteps)
  | 'd' => some (switch .debug)
  | _ => none

/-- One option as it was given. -/
inductive Given where
  | set (setting : Setting) (value : String)
  | on (switch : Switch)

/-- The option and the value of an argument such as `tape=01`, without its two dashes. -/
def splitLong (argument : List Char) : String × Option String :=
  let name := String.ofList (argument.takeWhile (· ≠ '='))
  match argument.dropWhile (· ≠ '=') with
  | [] => (name, none)
  | _ :: value => (name, some (String.ofList value))

/-- The options of an argument such as `dt01`, without its dash. If the last one still waits for its
value, it comes apart from the others. -/
def readShort : List Char → Option (List Given × Option Setting)
  | [] => some ([], none)
  | c :: rest => do
    match ← Key.ofShort? c with
    | .switch switch =>
      let (given, waiting) ← readShort rest
      return (.on switch :: given, waiting)
    | .setting setting =>
      match rest with
      | [] => return ([], some setting)
      | '=' :: value => return ([.set setting (String.ofList value)], none)
      | value => return ([.set setting (String.ofList value)], none)

/-- The options of one argument, and the option that waits for the next argument as its value. -/
def readArgument (argument : String) : Option (List Given × Option Setting) :=
  match argument.toList with
  | '-' :: '-' :: long => do
    let (name, value) := splitLong long
    match ← Key.ofLong? name, value with
    | .switch switch, none => return ([.on switch], none)
    | .switch _, some _ => none
    | .setting setting, none => return ([], some setting)
    | .setting setting, some value => return ([.set setting value], none)
  | '-' :: c :: rest => readShort (c :: rest)
  | _ => none

/-- An argument that begins with a dash is no value, unless it is the dash alone. -/
def isValue (argument : String) : Bool := argument.toList.head? ≠ some '-' || argument = "-"

/-- All options in order. Two dashes end them, and nothing may follow. -/
def readArguments : List String → Option (List Given)
  | [] => some []
  | argument :: rest =>
    if argument = "--" then if rest.isEmpty then some [] else none
    else do
      let (given, waiting) ← readArgument argument
      match waiting, rest with
      | none, rest => return given ++ (← readArguments rest)
      | some _, [] => none
      | some setting, value :: rest =>
        if isValue value then return given ++ .set setting value :: (← readArguments rest)
        else none

def valuesOf (setting : Setting) (given : List Given) : List String :=
  given.filterMap fun
    | .set other value => if other = setting then some value else none
    | .on _ => none

def countOf (switch : Switch) (given : List Given) : Nat :=
  given.countP fun
    | .on other => other = switch
    | .set _ _ => false

/-- A setting that may be given once. -/
def single? (setting : Setting) (given : List Given) : Option (Option String) :=
  match valuesOf setting given with
  | [] => some none
  | [value] => some (some value)
  | _ => none

/-- A switch that may be given once. -/
def switch? (switch : Switch) (given : List Given) : Option Bool :=
  match countOf switch given with
  | 0 => some false
  | 1 => some true
  | _ => none

/-- A number of steps: decimal digits, perhaps after a plus sign, and at most 2^64 - 1. -/
def stepCount? (text : String) : Option Nat :=
  let digits := if text.toList.head? = some '+' then text.toList.drop 1 else text.toList
  let value := digits.foldl (fun n c => n * 10 + (c.toNat - '0'.toNat)) 0
  if !digits.isEmpty && digits.all Char.isDigit && value < Nat.pow 2 64 then some value else none

def defaultMaxSteps : Nat := 10000

/-- What the user asked for. -/
structure Options where
  program : Option String
  builtin : Option String
  rules : List String
  tape : Option String
  initialState : Option String
  maxSteps : Nat
  strict : Bool
  debug : Bool
  json : Bool
  list : Bool
deriving DecidableEq

/-- A program file needs a name, and excludes a built-in program. -/
def Options.ofGiven? (given : List Given) : Option Options := do
  let program ← single? .program given
  let builtin ← single? .builtin given
  guard (program ≠ some "" ∧ (program = none ∨ builtin = none))
  let maxSteps ← match ← single? .maxSteps given with
    | none => some defaultMaxSteps
    | some text => stepCount? text
  return {
    program, builtin, maxSteps
    rules := valuesOf .rule given
    tape := ← single? .tape given
    initialState := ← single? .initialState given
    strict := ← switch? .strict given
    debug := ← switch? .debug given
    json := ← switch? .json given
    list := ← switch? .list given }

def Options.ofArguments? (arguments : List String) : Option Options :=
  (readArguments arguments).bind ofGiven?

end TapeMachine.CommandLine
