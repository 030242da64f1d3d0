import TapeMachine.Json.Number
import TapeMachine.Json.Reader

namespace TapeMachine.Json

abbrev Decoded := Except Fault

def isHighSurrogate (unit : Nat) : Bool := 0xD800 ≤ unit && unit < 0xDC00

def isLowSurrogate (unit : Nat) : Bool := 0xDC00 ≤ unit && unit < 0xE000

def surrogatePair (high low : Nat) : Char :=
  Char.ofNat (0x10000 + (high - 0xD800) * 0x400 + (low - 0xDC00))

/-- Why a high surrogate has no partner, if the string breaks off behind it. -/
def halfPairFault (stop : Option Break) : Fault :=
  match stop with
  | some .stringOpen => .malformed .stringCut
  | some .badHex => .malformed .badEscape
  | _ => .malformed .halfSurrogatePair

/-- The characters of a string. Surrogates must come in pairs. -/
def decodePieces (stop : Option Break) : List Piece → Decoded (List Char)
  | [] =>
    match stop with
    | none => .ok []
    | some cause => .error cause.fault
  | .char c :: rest => (c :: ·) <$> decodePieces stop rest
  | .unit high :: rest =>
    if isLowSurrogate high then .error (.malformed .loneSurrogate)
    else if isHighSurrogate high then
      match rest with
      | .unit low :: rest =>
        if isLowSurrogate low then (surrogatePair high low :: ·) <$> decodePieces stop rest
        else .error (.malformed .loneSurrogate)
      | .char _ :: _ => .error (.malformed .halfSurrogatePair)
      | [] => .error (halfPairFault stop)
    else (Char.ofNat high :: ·) <$> decodePieces stop rest

def Literal.text (literal : Literal) : Decoded String :=
  String.ofList <$> decodePieces literal.stop literal.pieces

namespace Node

/-- What stands here, if it is not broken itself. A list or an object is not looked into. -/
def found : Node → Decoded Found
  | null => .ok .null
  | boolean value => .ok (.boolean value)
  | number numeral => Number.found <$> numeral.value
  | string literal => Found.text <$> literal.text
  | list .. => .ok .sequence
  | object .. => .ok .map
  | broken cause => .error cause.fault

def refuse {α : Type} (node : Node) (expected : String) : Decoded α := do
  throw (.invalidType (← node.found) expected)

def decodeString : Node → Decoded String
  | string literal => literal.text
  | node => node.refuse "a string"

def decodeCharacter : Node → Decoded Char
  | string literal => do
    let text ← literal.text
    match text.toList with
    | [c] => return c
    | _ => throw (.invalidValue (.text text) "a character")
  | node => node.refuse "a character"

def decodeBoolean : Node → Decoded Bool
  | boolean value => .ok value
  | node => node.refuse "a boolean"

/-- A count: an integer from 0 to 2^64 - 1. -/
def decodeCount : Node → Decoded Nat
  | number numeral => do
    match ← numeral.value with
    | .natural value => return value
    | .negative value => throw (.invalidValue (.integer value) "usize")
    | .float value => throw (.invalidType (.float value) "usize")
  | node => node.refuse "usize"

/-- A position: an integer from -2^63 to 2^63 - 1. -/
def decodePosition : Node → Decoded Int
  | number numeral => do
    match ← numeral.value with
    | .natural value =>
      if value < Nat.pow 2 63 then return value else throw (.invalidValue (.integer value) "isize")
    | .negative value => return value
    | .float value => throw (.invalidType (.float value) "isize")
  | node => node.refuse "isize"

def decodeUnit : Node → Decoded Unit
  | null => .ok ()
  | node => node.refuse "unit"

mutual

/-- What is malformed in a value that is passed over. Numbers may be out of range there, and
surrogates need no partner. -/
def skipFault? : Node → Option Malformation
  | string literal => literal.stop.map Break.skipped
  | list items stop => skipItems? items <|> stop.map Break.skipped
  | object members stop => skipMembers? members <|> stop.map Break.skipped
  | broken cause => some cause.skipped
  | _ => none

def skipItems? : List Node → Option Malformation
  | [] => none
  | item :: items => item.skipFault? <|> skipItems? items

def skipMembers? : List Member → Option Malformation
  | [] => none
  | (key, value) :: members =>
    key.stop.map Break.skipped <|> value.skipFault? <|> skipMembers? members

end

def skip (node : Node) : Decoded Unit :=
  match node.skipFault? with
  | none => .ok ()
  | some cause => .error (.malformed cause)

end Node

def endOf (stop : Option Break) : Decoded Unit :=
  match stop with
  | none => .ok ()
  | some cause => .error cause.fault

/-- Decodes a whole text. Nothing but white space may follow the value. -/
def decodeText {α : Type} (decode : Node → Decoded α) (text : String) : Decoded α := do
  let (node, rest) := readNode text.toList
  let value ← decode node
  match rest with
  | .ok rest =>
    if (skipSpace rest).isEmpty then return value
    else throw (.malformed .trailingCharacters)
  | .error cause => throw cause.fault

end TapeMachine.Json
