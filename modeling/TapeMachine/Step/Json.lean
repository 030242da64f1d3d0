import TapeMachine.Abort.Json
import TapeMachine.Rule.Json
import TapeMachine.Step

namespace TapeMachine.Step

open Json

/-- The members of a step. The first names the outcome. -/
def members : Step → List (String × Value)
  | applied tape head isTerminal rule =>
    [("outcome", .string "applied"), ("tape", .list (tape.map .symbol)), ("head", .integer head),
      ("is_terminal", .boolean isTerminal), ("transition", rule.json)]
  | reverted tape head isTerminal =>
    [("outcome", .string "reverted"), ("tape", .list (tape.map .symbol)), ("head", .integer head),
      ("is_terminal", .boolean isTerminal)]
  | halted state => [("outcome", .string "halted"), ("state", .string state)]
  | aborted reason => [("outcome", .string "aborted"), ("reason", reason.json)]
  | noOp => [("outcome", .string "no_op")]

def json (step : Step) : Value := .object step.members

def decodeSymbols : Node → Decoded (List Symbol)
  | .list items stop => Items.decodeAll Node.decodeCharacter stop items
  | node => node.refuse "a sequence"

/-- The fields of a step that have been read so far. -/
structure Draft where
  tape : Option (List Symbol) := none
  head : Option Int := none
  isTerminal : Option Bool := none
  rule : Option Rule := none
  state : Option State := none
  reason : Option Abort := none

namespace Draft

/-- Takes a member if it is one of the `fields` of the outcome. -/
def take (fields : List String) (draft : Draft) (name : String) (node : Node) : Decoded Draft := do
  if name ∉ fields then
    node.skip
    return draft
  match name with
  | "tape" => return { draft with tape := ← fill name draft.tape (decodeSymbols node) }
  | "head" => return { draft with head := ← fill name draft.head node.decodePosition }
  | "is_terminal" =>
    return { draft with isTerminal := ← fill name draft.isTerminal node.decodeBoolean }
  | "transition" =>
    return { draft with
      rule := ← fill name draft.rule (Rule.record.decodeKept 5 "struct Transition" node) }
  | "state" => return { draft with state := ← fill name draft.state node.decodeString }
  | _ => return { draft with reason := ← fill name draft.reason (Abort.decodeKept node) }

end Draft

def draftOf (fields : List String) (members : List Member) (stop : Option Break) : Decoded Draft :=
  foldMembers (Draft.take fields) stop {} members

def appliedRecord : Record Step where
  expected := "struct variant Step::Applied"
  ofItems list := do
    let expected := "struct variant Step::Applied with 4 elements"
    let (tape, list) ← list.next decodeSymbols 0 expected
    let (head, list) ← list.next Node.decodePosition 1 expected
    let (isTerminal, list) ← list.next Node.decodeBoolean 2 expected
    let (rule, list) ← list.next (Rule.record.decodeKept 5 "struct Transition") 3 expected
    return (applied tape head isTerminal rule, list)
  ofMembers members stop := do
    let draft ← draftOf ["tape", "head", "is_terminal", "transition"] members stop
    return applied (← require "tape" draft.tape) (← require "head" draft.head)
      (← require "is_terminal" draft.isTerminal) (← require "transition" draft.rule)

def revertedRecord : Record Step where
  expected := "struct variant Step::Reverted"
  ofItems list := do
    let expected := "struct variant Step::Reverted with 3 elements"
    let (tape, list) ← list.next decodeSymbols 0 expected
    let (head, list) ← list.next Node.decodePosition 1 expected
    let (isTerminal, list) ← list.next Node.decodeBoolean 2 expected
    return (reverted tape head isTerminal, list)
  ofMembers members stop := do
    let draft ← draftOf ["tape", "head", "is_terminal"] members stop
    return reverted (← require "tape" draft.tape) (← require "head" draft.head)
      (← require "is_terminal" draft.isTerminal)

def haltedRecord : Record Step where
  expected := "struct variant Step::Halted"
  ofItems list := do
    let (state, list) ←
      list.next Node.decodeString 0 "struct variant Step::Halted with 1 element"
    return (halted state, list)
  ofMembers members stop := do
    let draft ← draftOf ["state"] members stop
    return halted (← require "state" draft.state)

def abortedRecord : Record Step where
  expected := "struct variant Step::Aborted"
  ofItems list := do
    let (reason, list) ←
      list.next Abort.decodeKept 0 "struct variant Step::Aborted with 1 element"
    return (aborted reason, list)
  ofMembers members stop := do
    let draft ← draftOf ["reason"] members stop
    return aborted (← require "reason" draft.reason)

def noOpRecord : Record Step where
  expected := "unit variant Step::NoOp"
  ofItems list := .ok (noOp, list)
  ofMembers _ _ := .ok noOp

/-- The record of an outcome with the number of its fields. -/
def recordOf? : String → Option (Record Step × Nat)
  | "applied" => some (appliedRecord, 4)
  | "reverted" => some (revertedRecord, 3)
  | "halted" => some (haltedRecord, 1)
  | "aborted" => some (abortedRecord, 1)
  | "no_op" => some (noOpRecord, 0)
  | _ => none

def outcomes : List String := ["applied", "reverted", "halted", "aborted", "no_op"]

/-- How the fields of an outcome are decoded, once all of them have been read. -/
abbrev FieldDecoder := Node → Decoded Step

def decodeOutcome : Node → Decoded FieldDecoder
  | .string literal => do
    let name ← literal.text
    match recordOf? name with
    | some (record, size) => return record.decodeKept size record.expected
    | none => throw (.unknownVariant name outcomes)
  | node => node.refuse "variant identifier"

/-- The outcome and the other members of a step, the latest first, as far as they have been read. -/
structure Gathered where
  outcome : Option FieldDecoder := none
  kept : List Member := []

def fieldDepth : Nat := maxDepth - 1

/-- The outcome may stand anywhere among the members. The others are only checked and kept. -/
def Gathered.take (gathered : Gathered) (name : String) (node : Node) : Decoded Gathered := do
  if name = "outcome" then
    return { gathered with outcome := ← fill name gathered.outcome (decodeOutcome node) }
  node.check fieldDepth
  return { gathered with kept := (⟨name.toList.map .char, none⟩, node) :: gathered.kept }

def decode : Node → Decoded Step
  | .object members stop => do
    let gathered ← foldMembers Gathered.take stop {} members
    let decodeFields ← require "outcome" gathered.outcome
    decodeFields (.object gathered.kept.reverse none)
  | .list [] stop => do
    endOf stop
    throw (.missingField "outcome")
  | .list (outcome :: items) stop => do
    let decodeFields ← decodeOutcome outcome
    Node.checkItems fieldDepth items
    endOf stop
    decodeFields (.list items none)
  | node => node.refuse "internally tagged enum Step"

end TapeMachine.Step
