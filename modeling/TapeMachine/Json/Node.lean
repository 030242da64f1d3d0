import TapeMachine.Json.Fault

namespace TapeMachine.Json

/-- Why the reading of a text stopped. Each cause tells where in a value the reader was, because the
same accident is reported in different words where a value is wanted and where it is passed over. -/
inductive Break where
  | valueMissing
  | noValue
  | wordCut
  | badWord
  | numberCut
  | badNumber
  | stringOpen
  | controlCharacter
  | badEscape
  | badHex
  | listOpen
  | listSeparator
  | listComma
  | objectOpen
  | objectSeparator
  | objectComma
  | keyMissing
  | keyUnquoted
  | colonCut
  | colonMissing
deriving DecidableEq

/-- The cause as reported where a value is wanted. -/
def Break.wanted : Break → Malformation
  | valueMissing | wordCut | numberCut | keyMissing => .valueCut
  | noValue => .noValue
  | badWord => .badWord
  | badNumber => .badNumber
  | stringOpen => .stringCut
  | controlCharacter => .controlCharacter
  | badEscape | badHex => .badEscape
  | listOpen => .listCut
  | listSeparator => .noListSeparator
  | listComma | objectComma => .trailingComma
  | objectOpen | colonCut => .objectCut
  | objectSeparator => .noObjectSeparator
  | keyUnquoted => .unquotedKey
  | colonMissing => .noColon

/-- The cause as reported within a value that is passed over. -/
def Break.skipped : Break → Malformation
  | numberCut => .badNumber
  | listComma => .noValue
  | objectComma => .unquotedKey
  | keyMissing => .objectCut
  | cause => cause.wanted

def Break.fault (cause : Break) : Fault := .malformed cause.wanted

/-- A number as it is written. Without a fraction or an exponent those lists are empty. -/
structure Numeral where
  negative : Bool
  whole : List Char
  fraction : List Char
  exponentNegative : Bool
  exponent : List Char
deriving DecidableEq

/-- A character of a string, or the 16-bit unit that a hexadecimal escape stands for. -/
inductive Piece where
  | char (c : Char)
  | unit (value : Nat)
deriving DecidableEq

/-- A string as it is written, up to its end or to the cause that broke it off. -/
structure Literal where
  pieces : List Piece
  stop : Option Break
deriving DecidableEq

/-- A JSON text as far as it could be read. A list or an object holds what was read of it. If the
reader broke off inside, `stop` holds the cause, and the last part may itself be broken. -/
inductive Node where
  | null
  | boolean (value : Bool)
  | number (numeral : Numeral)
  | string (literal : Literal)
  | list (items : List Node) (stop : Option Break)
  | object (members : List (Literal × Node)) (stop : Option Break)
  | broken (cause : Break)

abbrev Member := Literal × Node

end TapeMachine.Json
