import TapeMachine.Json.Record

namespace TapeMachine.Json

/-- One of several kinds of value, each known by its name. -/
structure Variants (α : Type) where
  names : List String
  /-- How the value of the kind of a known name is decoded. -/
  payload : String → Option (Node → Decoded α)
  /-- The value that a name stands for on its own. -/
  unit : String → Option α

namespace Variants

def payloadOf {α : Type} (variants : Variants α) (name : String) :
    Decoded (Node → Decoded α) :=
  match variants.payload name with
  | some decode => .ok decode
  | none => .error (.unknownVariant name variants.names)

/-- A name alone names a kind without fields. -/
def decodeName {α : Type} (variants : Variants α) (name : String) : Decoded α := do
  let _ ← variants.payloadOf name
  match variants.unit name with
  | some value => return value
  | none => throw (.invalidType .unitVariant "struct variant")

/-- Nothing may follow the one member of an object that names a kind. -/
def closeObject (members : List Member) (stop : Option Break) : Decoded Unit :=
  match members, stop with
  | [], none => .ok ()
  | [], some .objectOpen => .error (.malformed .objectCut)
  | _, _ => .error (.malformed .noValue)

/-- A kind is written as its name, or as an object whose one member has that name. Within the object the
name is a key as any other and no value: what is no string there is no key, and a text that ends before it
has cut the object. -/
def decode {α : Type} (variants : Variants α) : Node → Decoded α
  | .string literal => do variants.decodeName (← literal.text)
  | .object ((key, value) :: members) stop => do
    let name ← key.text
    let decode ← variants.payloadOf name
    let value ← decode value
    closeObject members stop
    return value
  | .object [] (some cause) => .error cause.fault
  | .broken .valueMissing => .error (.malformed .valueCut)
  | .broken .colonCut => .error (.malformed .objectCut)
  | .broken .colonMissing => .error (.malformed .noColon)
  | _ => .error (.malformed .noValue)

end Variants

end TapeMachine.Json
