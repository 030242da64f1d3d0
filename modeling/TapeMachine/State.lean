namespace TapeMachine

/-- A control state, known by its name. -/
abbrev State := String

end TapeMachine
