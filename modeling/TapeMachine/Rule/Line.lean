import TapeMachine.Rule
import TapeMachine.Text.LowerCase
import TapeMachine.Text.Whitespace

namespace TapeMachine

/-- The tokens of a line, all in small letters. Only the first wide gap between tokens counts as one
space: a second one leaves an empty token behind. -/
def lineTokens (line : List Char) : List (List Char) :=
  (Text.lower (Text.collapseGap (Text.trim line))).splitOn ' '

def Rule.ofTokens? : List (List Char) → Option Rule
  | [start, [read], [write], move, next] =>
    some ⟨String.ofList start, read, write, Direction.ofToken (String.ofList move),
      String.ofList next⟩
  | _ => none

/-- The rule on a line, if the line has five tokens and both symbols are single characters. -/
def Rule.ofLine? (line : String) : Option Rule := Rule.ofTokens? (lineTokens line.toList)

end TapeMachine
