import TapeMachine.Abort
import TapeMachine.Json.Buffered
import TapeMachine.Json.Value

namespace TapeMachine.Abort

open Json

def json : Abort → Value
  | undefinedTransition state symbol =>
    .object [("UndefinedTransition",
      .object [("state", .string state), ("symbol", .symbol symbol)])]
  | invalidDirection index token =>
    .object [("InvalidDirection", .object [("index", .integer index), ("token", .string token)])]

/-- The fields of an undefined transition that have been read so far. -/
structure UndefinedDraft where
  state : Option State := none
  symbol : Option Symbol := none

def UndefinedDraft.take (draft : UndefinedDraft) (name : String) (node : Node) :
    Decoded UndefinedDraft := do
  match name with
  | "state" => return { draft with state := ← fill name draft.state node.decodeString }
  | "symbol" => return { draft with symbol := ← fill name draft.symbol node.decodeCharacter }
  | _ => node.skip; return draft

def undefinedRecord : Record Abort where
  expected := "struct variant Abort::UndefinedTransition"
  ofItems list := do
    let expected := "struct variant Abort::UndefinedTransition with 2 elements"
    let (state, list) ← list.next Node.decodeString 0 expected
    let (symbol, list) ← list.next Node.decodeCharacter 1 expected
    return (undefinedTransition state symbol, list)
  ofMembers members stop := do
    let draft ← foldMembers UndefinedDraft.take stop {} members
    return undefinedTransition (← require "state" draft.state) (← require "symbol" draft.symbol)

/-- The fields of an invalid direction that have been read so far. -/
structure InvalidDraft where
  index : Option Nat := none
  token : Option String := none

def InvalidDraft.take (draft : InvalidDraft) (name : String) (node : Node) :
    Decoded InvalidDraft := do
  match name with
  | "index" => return { draft with index := ← fill name draft.index node.decodeCount }
  | "token" => return { draft with token := ← fill name draft.token node.decodeString }
  | _ => node.skip; return draft

def invalidRecord : Record Abort where
  expected := "struct variant Abort::InvalidDirection"
  ofItems list := do
    let expected := "struct variant Abort::InvalidDirection with 2 elements"
    let (index, list) ← list.next Node.decodeCount 0 expected
    let (token, list) ← list.next Node.decodeString 1 expected
    return (invalidDirection index token, list)
  ofMembers members stop := do
    let draft ← foldMembers InvalidDraft.take stop {} members
    return invalidDirection (← require "index" draft.index) (← require "token" draft.token)

/-- The two kinds of abort, given how to decode their fields. -/
def variants (decodeFields : Record Abort → Node → Decoded Abort) : Variants Abort where
  names := ["UndefinedTransition", "InvalidDirection"]
  payload
    | "UndefinedTransition" => some (decodeFields undefinedRecord)
    | "InvalidDirection" => some (decodeFields invalidRecord)
    | _ => none
  unit _ := none

def decode : Node → Decoded Abort := (variants Record.decode).decode

/-- Decodes an abort from a value that was kept. -/
def decodeKept : Node → Decoded Abort :=
  (variants fun record => record.decodeKept 2 "struct variant").decodeKept

end TapeMachine.Abort
