namespace TapeMachine

/-- What one cell of the tape holds. -/
abbrev Symbol := Char

/-- The symbol of every cell that nothing has been written to. -/
def blank : Symbol := '_'

end TapeMachine
