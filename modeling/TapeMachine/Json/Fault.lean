import TapeMachine.Decimal.Notation
import TapeMachine.Text.Quoted

namespace TapeMachine.Json

/-- What is wrong with a text that is no JSON, or holds a number or a character that cannot be
represented. -/
inductive Malformation where
  | valueCut
  | stringCut
  | listCut
  | objectCut
  | noValue
  | badWord
  | noColon
  | noListSeparator
  | noObjectSeparator
  | unquotedKey
  | trailingComma
  | trailingCharacters
  | badNumber
  | numberOutOfRange
  | badEscape
  | loneSurrogate
  | halfSurrogatePair
  | controlCharacter
  | tooDeep
deriving DecidableEq

def Malformation.message : Malformation → String
  | valueCut => "EOF while parsing a value"
  | stringCut => "EOF while parsing a string"
  | listCut => "EOF while parsing a list"
  | objectCut => "EOF while parsing an object"
  | noValue => "expected value"
  | badWord => "expected ident"
  | noColon => "expected `:`"
  | noListSeparator => "expected `,` or `]`"
  | noObjectSeparator => "expected `,` or `\x7d`"
  | unquotedKey => "key must be a string"
  | trailingComma => "trailing comma"
  | trailingCharacters => "trailing characters"
  | badNumber => "invalid number"
  | numberOutOfRange => "number out of range"
  | badEscape => "invalid escape"
  | loneSurrogate => "lone leading surrogate in hex escape"
  | halfSurrogatePair => "unexpected end of hex escape"
  | controlCharacter => "control character (\\u0000-\\u001F) found while parsing a string"
  | tooDeep => "recursion limit exceeded"

/-- What stands where something else was expected. -/
inductive Found where
  | null
  | boolean (value : Bool)
  | integer (value : Int)
  | float (value : Float)
  | text (value : String)
  | sequence
  | map
  | unitVariant

def Found.message : Found → String
  | null => "null"
  | boolean value => s!"boolean `{value}`"
  | integer value => s!"integer `{value}`"
  | float value => s!"floating point `{Decimal.floatText value}`"
  | text value => s!"string {Text.quoted value}"
  | sequence => "sequence"
  | map => "map"
  | unitVariant => "unit variant"

/-- Why a text does not describe a value of the wanted kind. The place of the fault in the text, its line
and its column, is left out. -/
inductive Fault where
  | malformed (cause : Malformation)
  | invalidType (found : Found) (expected : String)
  | invalidValue (found : Found) (expected : String)
  | invalidLength (length : Nat) (expected : String)
  | missingField (name : String)
  | duplicateField (name : String)
  | unknownVariant (name : String) (known : List String)

def alternatives (names : List String) : String :=
  match names.map fun name => s!"`{name}`" with
  | [] => "nothing"
  | [name] => name
  | [first, second] => s!"{first} or {second}"
  | names => "one of " ++ ", ".intercalate names

/-- The text of a fault, up to where it would tell the line and the column. -/
def Fault.message : Fault → String
  | malformed cause => cause.message
  | invalidType found expected => s!"invalid type: {found.message}, expected {expected}"
  | invalidValue found expected => s!"invalid value: {found.message}, expected {expected}"
  | invalidLength length expected => s!"invalid length {length}, expected {expected}"
  | missingField name => s!"missing field `{name}`"
  | duplicateField name => s!"duplicate field `{name}`"
  | unknownVariant name known => s!"unknown variant `{name}`, expected {alternatives known}"

end TapeMachine.Json
