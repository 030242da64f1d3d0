import TapeMachine.Direction
import TapeMachine.Json.Decode
import TapeMachine.Json.Value

namespace TapeMachine.Direction

open Json

def json (direction : Direction) : Value := .string direction.token

def decode (node : Node) : Decoded Direction := ofToken <$> node.decodeString

end TapeMachine.Direction
