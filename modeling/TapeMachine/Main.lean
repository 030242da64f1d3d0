import TapeMachine.CommandLine

namespace TapeMachine.CommandLine

def usage : String :=
  "Usage: tape-machine [-p FILE | -b NAME | -r RULE ...] [-t TAPE] [-s STATE] [-m STEPS] " ++
    "[--strict] [-d] [--json] [--list]"

def readFault : IO.Error → ReadFault
  | .noFileOrDirectory .. => .missing
  | error => .other (toString error)

def contentOf (read : IO ByteArray) : IO Content := do
  try
    return .ok (← read)
  catch error => return .error (readFault error)

/-- Reads what the options name. -/
def readSource (options : Options) : IO Content :=
  match options.list, options.source with
  | false, .file path => contentOf (IO.FS.readBinFile path)
  | false, .input => contentOf do (← IO.getStdin).readBinToEnd
  | _, _ => return .ok ByteArray.empty

end TapeMachine.CommandLine

open TapeMachine.CommandLine in
def main (arguments : List String) : IO UInt32 := do
  match Options.ofArguments? arguments with
  | none =>
    IO.eprintln usage
    return usageExit.toUInt32
  | some options =>
    let outcome := run options (← readSource options)
    outcome.output.forM IO.println
    outcome.errors.forM IO.eprintln
    return outcome.exit.toUInt32
