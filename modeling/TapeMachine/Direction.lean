namespace TapeMachine

/-- Where the head goes after a rule has written. A token that names no movement is kept, so that
the rule aborts the computation that reaches it. -/
inductive Direction where
  | left
  | right
  | unknown (token : String)
deriving DecidableEq

namespace Direction

def ofToken (token : String) : Direction :=
  if token = "l" then left else if token = "r" then right else unknown token

def token : Direction → String
  | left => "l"
  | right => "r"
  | unknown token => token

def offset? : Direction → Option Int
  | left => some (-1)
  | right => some 1
  | unknown _ => none

def reverse? : Direction → Option Direction
  | left => some right
  | right => some left
  | unknown _ => none

end Direction

end TapeMachine
