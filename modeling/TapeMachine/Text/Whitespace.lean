import TapeMachine.Text.CodeRanges

namespace TapeMachine.Text

def whitespaceRanges : CodeRanges := [
  (0x9, 0xD), (0x20, 0x20), (0x85, 0x85), (0xA0, 0xA0), (0x1680, 0x1680), (0x2000, 0x200A),
  (0x2028, 0x2029), (0x202F, 0x202F), (0x205F, 0x205F), (0x3000, 0x3000)]

/-- White space in every script, and not the space of ASCII alone. The separators U+001C to U+001F
and the zero-width space U+200B are not white. -/
def isWhitespace (c : Char) : Bool := whitespaceRanges.contains c

def trimStart (text : List Char) : List Char := text.dropWhile isWhitespace

def trimEnd (text : List Char) : List Char := (text.reverse.dropWhile isWhitespace).reverse

def trim (text : List Char) : List Char := trimEnd (trimStart text)

/-- The first run of two or more spaces becomes one space. Later runs stay as they are. -/
def collapseGap : List Char → List Char
  | [] => []
  | c :: rest =>
    if c = ' ' ∧ rest.head? = some ' ' then ' ' :: rest.dropWhile (· = ' ')
    else c :: collapseGap rest

end TapeMachine.Text
