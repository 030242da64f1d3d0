import TapeMachine.Json.Decode

namespace TapeMachine.Json

/-- What is left of a list. -/
structure Items where
  items : List Node
  stop : Option Break

namespace Items

/-- Decodes the next item, if there is one. -/
def next? {α : Type} (list : Items) (decode : Node → Decoded α) : Decoded (Option α × Items) :=
  match list.items with
  | [] => do
    endOf list.stop
    return (none, list)
  | item :: items => do return (some (← decode item), { list with items })

def nextD {α : Type} (list : Items) (decode : Node → Decoded α) (missing : α) :
    Decoded (α × Items) := do
  let (value, list) ← list.next? decode
  return (value.getD missing, list)

/-- Decodes the next item, which must be there. `index` items stand before it. -/
def next {α : Type} (list : Items) (decode : Node → Decoded α) (index : Nat) (expected : String) :
    Decoded (α × Items) := do
  match ← list.next? decode with
  | (some value, list) => return (value, list)
  | (none, _) => throw (.invalidLength index expected)

/-- A list that is read as a record must end after the last field. -/
def close (list : Items) : Decoded Unit :=
  match list.items, list.stop with
  | [], none => .ok ()
  | [], some .listOpen => .error (.malformed .listCut)
  | [], some .listComma => .error (.malformed .trailingComma)
  | _, _ => .error (.malformed .trailingCharacters)

def decodeAll {α : Type} (decode : Node → Decoded α) (stop : Option Break) :
    List Node → Decoded (List α)
  | [] => do
    endOf stop
    return []
  | item :: items => do
    let value ← decode item
    return value :: (← decodeAll decode stop items)

end Items

/-- Takes the members of an object one by one, in the order in which they stand. -/
def foldMembers {σ : Type} (take : σ → String → Node → Decoded σ) (stop : Option Break) :
    σ → List Member → Decoded σ
  | state, [] => do
    endOf stop
    return state
  | state, (key, value) :: members => do
    let name ← key.text
    foldMembers take stop (← take state name value) members

/-- Fills the place of a field, which must still be empty. -/
def fill {α : Type} (name : String) (place : Option α) (value : Decoded α) :
    Decoded (Option α) := do
  if place.isSome then throw (.duplicateField name)
  some <$> value

def require {α : Type} (name : String) : Option α → Decoded α
  | some value => .ok value
  | none => .error (.missingField name)

/-- A record is written as an object with a member for each field, or as a list of its fields in
order. -/
structure Record (α : Type) where
  expected : String
  ofItems : Items → Decoded (α × Items)
  ofMembers : List Member → Option Break → Decoded α

/-- Decodes a record from text that is just being read. -/
def Record.decode {α : Type} (record : Record α) : Node → Decoded α
  | .list items stop => do
    let (value, rest) ← record.ofItems ⟨items, stop⟩
    rest.close
    return value
  | .object members stop => record.ofMembers members stop
  | node => node.refuse record.expected

end TapeMachine.Json
