import TapeMachine.Direction.Json
import TapeMachine.Json.Record
import TapeMachine.Rule

namespace TapeMachine.Rule

open Json

def json (rule : Rule) : Value :=
  .object [("start", .string rule.start), ("read", .symbol rule.read),
    ("write", .symbol rule.write), ("move", rule.move.json), ("end", .string rule.next)]

/-- The fields of a rule that have been read so far. -/
structure Draft where
  start : Option State := none
  read : Option Symbol := none
  write : Option Symbol := none
  move : Option Direction := none
  next : Option State := none

namespace Draft

def take (draft : Draft) (name : String) (node : Node) : Decoded Draft := do
  match name with
  | "start" => return { draft with start := ← fill name draft.start node.decodeString }
  | "read" => return { draft with read := ← fill name draft.read node.decodeCharacter }
  | "write" => return { draft with write := ← fill name draft.write node.decodeCharacter }
  | "move" => return { draft with move := ← fill name draft.move (Direction.decode node) }
  | "end" => return { draft with next := ← fill name draft.next node.decodeString }
  | _ => node.skip; return draft

def finish (draft : Draft) : Decoded Rule := do
  return {
    start := ← require "start" draft.start
    read := ← require "read" draft.read
    write := ← require "write" draft.write
    move := ← require "move" draft.move
    next := ← require "end" draft.next }

end Draft

def ofItems (list : Items) : Decoded (Rule × Items) := do
  let expected := "struct Transition with 5 elements"
  let (start, list) ← list.next Node.decodeString 0 expected
  let (read, list) ← list.next Node.decodeCharacter 1 expected
  let (write, list) ← list.next Node.decodeCharacter 2 expected
  let (move, list) ← list.next Direction.decode 3 expected
  let (next, list) ← list.next Node.decodeString 4 expected
  return ({ start, read, write, move, next }, list)

def ofMembers (members : List Member) (stop : Option Break) : Decoded Rule := do
  (← foldMembers Draft.take stop {} members).finish

def record : Record Rule where
  expected := "struct Transition"
  ofItems := ofItems
  ofMembers := ofMembers

def decode : Node → Decoded Rule := record.decode

end TapeMachine.Rule
