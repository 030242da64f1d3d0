import TapeMachine.Json.Variant

namespace TapeMachine.Json

/-- How many brackets may stand inside one another where values are kept for later. -/
def maxDepth : Nat := 128

def enter (depth : Nat) : Decoded Unit :=
  if depth ≤ 1 then .error (.malformed .tooDeep) else .ok ()

namespace Node

mutual

/-- Checks a value that is kept to be decoded later: it must be well-formed, its numbers and strings
must be representable, and it may open brackets up to `depth`. -/
def check (depth : Nat) : Node → Decoded Unit
  | null | boolean _ => .ok ()
  | number numeral => (fun _ => ()) <$> numeral.value
  | string literal => (fun _ => ()) <$> literal.text
  | list items stop => do
    enter depth
    checkItems (depth - 1) items
    endOf stop
  | object members stop => do
    enter depth
    checkMembers (depth - 1) members
    endOf stop
  | broken cause => .error cause.fault

def checkItems (depth : Nat) : List Node → Decoded Unit
  | [] => .ok ()
  | item :: items => do
    item.check depth
    checkItems depth items

def checkMembers (depth : Nat) : List Member → Decoded Unit
  | [] => .ok ()
  | (key, value) :: members => do
    let _ ← key.text
    value.check depth
    checkMembers depth members

end

end Node

def elementCount : Nat → String
  | 1 => "1 element"
  | n => s!"{n} elements"

/-- Decodes a record of `size` fields from a list that was kept, which must hold no more. -/
def Record.decodeKeptItems {α : Type} (record : Record α) (size : Nat) (items : List Node) :
    Decoded α := do
  let (value, _) ← record.ofItems ⟨items, none⟩
  if size < items.length then
    throw (.invalidLength items.length s!"{elementCount size} in sequence")
  return value

/-- Decodes a record of `size` fields from a value that was kept. -/
def Record.decodeKept {α : Type} (record : Record α) (size : Nat) (expected : String) :
    Node → Decoded α
  | .list items _ => record.decodeKeptItems size items
  | .object members _ => record.ofMembers members none
  | node => node.refuse expected

/-- Decodes a kind from a value that was kept. -/
def Variants.decodeKept {α : Type} (variants : Variants α) : Node → Decoded α
  | .string literal => do variants.decodeName (← literal.text)
  | .object [(key, value)] _ => do
    let decode ← variants.payloadOf (← key.text)
    decode value
  | .object _ _ => .error (.invalidValue .map "map with a single key")
  | node => node.refuse "string or map"

end TapeMachine.Json
