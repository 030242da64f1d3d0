import TapeMachine.Halt
import TapeMachine.Json.Value
import TapeMachine.Json.Variant

namespace TapeMachine.Halt

open Json

def name : Halt → String
  | accept => "Accept"
  | reject => "Reject"
  | abort => "Abort"

def ofName? (name : String) : Option Halt := all.find? fun halt => halt.name = name

def json (halt : Halt) : Value := .string halt.name

def variants : Variants Halt where
  names := all.map name
  payload name := (ofName? name).map fun halt node => (fun _ => halt) <$> node.decodeUnit
  unit := ofName?

def decode : Node → Decoded Halt := variants.decode

end TapeMachine.Halt
