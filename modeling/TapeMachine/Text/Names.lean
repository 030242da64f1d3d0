namespace TapeMachine.Text

def insertName (name : String) : List String → List String
  | [] => [name]
  | first :: rest =>
    if name < first then name :: first :: rest
    else if name = first then first :: rest
    else first :: insertName name rest

/-- Each name once, in the order of code points. -/
def sortedNames (names : List String) : List String := names.foldr insertName []

end TapeMachine.Text
