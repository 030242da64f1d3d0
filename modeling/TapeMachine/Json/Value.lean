namespace TapeMachine.Json

/-- A JSON value without fractions. The members of an object keep their order. -/
inductive Value where
  | null
  | boolean (value : Bool)
  | integer (value : Int)
  | string (value : String)
  | list (items : List Value)
  | object (members : List (String × Value))

def hexDigits (width n : Nat) : List Char :=
  let digits := Nat.toDigits 16 n
  List.replicate (width - digits.length) '0' ++ digits

/-- One character of a string. Only quotation marks, backslashes and control characters are
escaped. -/
def escaped (c : Char) : List Char :=
  match c with
  | '"' => ['\\', '"']
  | '\\' => ['\\', '\\']
  | '\x08' => ['\\', 'b']
  | '\x0c' => ['\\', 'f']
  | '\n' => ['\\', 'n']
  | '\r' => ['\\', 'r']
  | '\t' => ['\\', 't']
  | c => if c < ' ' then ['\\', 'u'] ++ hexDigits 4 c.toNat else [c]

def integerText (value : Int) : List Char :=
  (if value < 0 then ['-'] else []) ++ Nat.toDigits 10 value.natAbs

def stringText (text : String) : List Char := '"' :: text.toList.flatMap escaped ++ ['"']

namespace Value

def symbol (c : Char) : Value := .string c.toString

mutual

/-- The value as text without white space between its parts. -/
def print : Value → List Char
  | null => ['n', 'u', 'l', 'l']
  | boolean true => ['t', 'r', 'u', 'e']
  | boolean false => ['f', 'a', 'l', 's', 'e']
  | integer value => integerText value
  | string value => stringText value
  | list items => '[' :: printItems items ++ [']']
  | object members => '{' :: printMembers members ++ ['}']

def printItems : List Value → List Char
  | [] => []
  | [item] => print item
  | item :: items => print item ++ ',' :: printItems items

def printMembers : List (String × Value) → List Char
  | [] => []
  | [(key, value)] => stringText key ++ ':' :: print value
  | (key, value) :: members => stringText key ++ ':' :: print value ++ ',' :: printMembers members

end

def text (value : Value) : String := String.ofList value.print

end Value

end TapeMachine.Json
