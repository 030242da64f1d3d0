import TapeMachine.Json.Node

namespace TapeMachine.Json

def isSpace (c : Char) : Bool := c = ' ' || c = '\t' || c = '\n' || c = '\r'

def skipSpace (text : List Char) : List Char := text.dropWhile isSpace

/-- The text after what was read, or the cause that stopped the reader. -/
abbrev Rest := Except Break (List Char)

def Rest.break? : Rest → Option Break
  | .ok _ => none
  | .error cause => some cause

/-- Expects `word` letter by letter. -/
def readWord : List Char → List Char → Rest
  | [], text => .ok text
  | _ :: _, [] => .error .wordCut
  | letter :: word, c :: text => if c = letter then readWord word text else .error .badWord

/-- At least one digit, and all that follow it. -/
def readDigits (text : List Char) : Except Break (List Char × List Char) :=
  match text with
  | [] => .error .numberCut
  | c :: _ =>
    if c.isDigit then .ok (text.takeWhile Char.isDigit, text.dropWhile Char.isDigit)
    else .error .badNumber

/-- Digits of which the first is not 0 unless it is the only one. -/
def readWhole (text : List Char) : Except Break (List Char × List Char) := do
  let (digits, rest) ← readDigits text
  if digits.head? = some '0' ∧ digits ≠ ['0'] then throw .badNumber
  return (digits, rest)

def readFraction : List Char → Except Break (List Char × List Char)
  | '.' :: text => readDigits text
  | text => .ok ([], text)

def readExponent : List Char → Except Break (Bool × List Char × List Char)
  | c :: text =>
    if c = 'e' ∨ c = 'E' then
      match text with
      | '-' :: text => (true, ·) <$> readDigits text
      | '+' :: text => (false, ·) <$> readDigits text
      | text => (false, ·) <$> readDigits text
    else .ok (false, [], c :: text)
  | [] => .ok (false, [], [])

def readNumeral (negative : Bool) (text : List Char) : Except Break (Numeral × List Char) := do
  let (whole, text) ← readWhole text
  let (fraction, text) ← readFraction text
  let (exponentNegative, exponent, text) ← readExponent text
  return ({ negative, whole, fraction, exponentNegative, exponent }, text)

def hexDigit? (c : Char) : Option Nat :=
  if c.isDigit then some (c.toNat - '0'.toNat)
  else if 'a' ≤ c ∧ c ≤ 'f' then some (c.toNat - 'a'.toNat + 10)
  else if 'A' ≤ c ∧ c ≤ 'F' then some (c.toNat - 'A'.toNat + 10)
  else none

def hexUnit? (a b c d : Char) : Option Nat := do
  return (((← hexDigit? a) * 16 + (← hexDigit? b)) * 16 + (← hexDigit? c)) * 16 + (← hexDigit? d)

/-- Why four hexadecimal digits could not be taken: the text has not that many bytes left, or they
are no digits. -/
def hexBreak (text : List Char) : Break :=
  if (text.take 4).foldl (fun bytes c => bytes + c.utf8Size) 0 < 4 then .stringOpen else .badHex

/-- The character of an escape of one letter. -/
def shortEscape? (c : Char) : Option Char :=
  match c with
  | '"' => some '"'
  | '\\' => some '\\'
  | '/' => some '/'
  | 'b' => some '\x08'
  | 'f' => some '\x0c'
  | 'n' => some '\n'
  | 'r' => some '\r'
  | 't' => some '\t'
  | _ => none

/-- What follows an opening quotation mark, up to the closing one. -/
def readPieces : List Char → List Piece × Rest
  | [] => ([], .error .stringOpen)
  | '"' :: text => ([], .ok text)
  | ['\\'] => ([], .error .stringOpen)
  | '\\' :: 'u' :: a :: b :: c :: d :: text =>
    match hexUnit? a b c d with
    | some value =>
      let (pieces, rest) := readPieces text
      (.unit value :: pieces, rest)
    | none => ([], .error (hexBreak (a :: b :: c :: d :: text)))
  | '\\' :: c :: text =>
    if c = 'u' then ([], .error (hexBreak text))
    else match shortEscape? c with
      | some c =>
        let (pieces, rest) := readPieces text
        (.char c :: pieces, rest)
      | none => ([], .error .badEscape)
  | c :: text =>
    if c < ' ' then ([], .error .controlCharacter)
    else
      let (pieces, rest) := readPieces text
      (.char c :: pieces, rest)

def readLiteral (text : List Char) : Literal × Rest :=
  let (pieces, rest) := readPieces text
  (⟨pieces, rest.break?⟩, rest)

/-- A node and what follows it. A node that could not be read at all is broken. -/
def nodeOr (read : Except Break (Node × List Char)) : Node × Rest :=
  match read with
  | .ok (node, text) => (node, .ok text)
  | .error cause => (.broken cause, .error cause)

def wordNode (node : Node) (rest : Rest) : Node × Rest := nodeOr ((node, ·) <$> rest)

def numberNode (negative : Bool) (text : List Char) : Node × Rest :=
  nodeOr ((fun (numeral, text) => (.number numeral, text)) <$> readNumeral negative text)

mutual

/-- One value. Each bracket and each part inside costs one unit of fuel. -/
def readValue : Nat → List Char → Node × Rest
  | 0, _ => nodeOr (.error .valueMissing)
  | fuel + 1, text =>
    match skipSpace text with
    | [] => nodeOr (.error .valueMissing)
    | '"' :: text =>
      let (literal, rest) := readLiteral text
      (.string literal, rest)
    | '[' :: text =>
      let (items, rest) := readItems fuel true text
      (.list items rest.break?, rest)
    | '{' :: text =>
      let (members, rest) := readMembers fuel true text
      (.object members rest.break?, rest)
    | 'n' :: text => wordNode .null (readWord ['u', 'l', 'l'] text)
    | 't' :: text => wordNode (.boolean true) (readWord ['r', 'u', 'e'] text)
    | 'f' :: text => wordNode (.boolean false) (readWord ['a', 'l', 's', 'e'] text)
    | '-' :: text => numberNode true text
    | c :: text => if c.isDigit then numberNode false (c :: text) else nodeOr (.error .noValue)

/-- The items of a list after its opening bracket, or after a comma if they are not the `first`. -/
def readItems : Nat → Bool → List Char → List Node × Rest
  | 0, _, _ => ([], .error .listOpen)
  | fuel + 1, first, text =>
    match first, skipSpace text with
    | true, [] => ([], .error .listOpen)
    | true, ']' :: text => ([], .ok text)
    | false, ']' :: _ => ([], .error .listComma)
    | _, text =>
      let (item, rest) := readValue fuel text
      match rest with
      | .error cause => ([item], .error cause)
      | .ok text =>
        match skipSpace text with
        | [] => ([item], .error .listOpen)
        | ']' :: text => ([item], .ok text)
        | ',' :: text =>
          let (items, rest) := readItems fuel false text
          (item :: items, rest)
        | _ => ([item], .error .listSeparator)

/-- The members of an object after its opening brace, or after a comma if they are not the
`first`. -/
def readMembers : Nat → Bool → List Char → List Member × Rest
  | 0, _, _ => ([], .error .objectOpen)
  | fuel + 1, first, text =>
    match first, skipSpace text with
    | true, [] => ([], .error .objectOpen)
    | false, [] => ([], .error .keyMissing)
    | true, '}' :: text => ([], .ok text)
    | false, '}' :: _ => ([], .error .objectComma)
    | _, '"' :: text =>
      let (key, rest) := readLiteral text
      let (value, rest) := readColonAndValue fuel rest
      match rest with
      | .error cause => ([(key, value)], .error cause)
      | .ok text =>
        match skipSpace text with
        | [] => ([(key, value)], .error .objectOpen)
        | '}' :: text => ([(key, value)], .ok text)
        | ',' :: text =>
          let (members, rest) := readMembers fuel false text
          ((key, value) :: members, rest)
        | _ => ([(key, value)], .error .objectSeparator)
    | _, _ => ([], .error .keyUnquoted)

/-- What follows the key of a member. -/
def readColonAndValue : Nat → Rest → Node × Rest
  | 0, _ => nodeOr (.error .colonCut)
  | _ + 1, .error cause => nodeOr (.error cause)
  | fuel + 1, .ok text =>
    match skipSpace text with
    | [] => nodeOr (.error .colonCut)
    | ':' :: text => readValue fuel text
    | _ => nodeOr (.error .colonMissing)

end

/-- More fuel than any text of this length can use. -/
def fuelFor (text : List Char) : Nat := 3 * text.length + 3

def readNode (text : List Char) : Node × Rest := readValue (fuelFor text) text

end TapeMachine.Json
