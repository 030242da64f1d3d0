namespace TapeMachine

variable {Fault Value Answer : Type} {answer : Except Fault Value}

theorem map_eq_ok_iff {change : Value → Answer} {value : Answer} :
    change <$> answer = .ok value ↔ ∃ before, answer = .ok before ∧ change before = value := by
  cases answer with
  | error fault => exact ⟨nofun, nofun⟩
  | ok before =>
    constructor
    · intro changed
      exact ⟨before, rfl, Except.ok.inj changed⟩
    · rintro ⟨_, same, changed⟩
      cases same
      exact congrArg Except.ok changed

theorem bind_eq_ok_iff {next : Value → Except Fault Answer} {value : Answer} :
    answer >>= next = .ok value ↔ ∃ before, answer = .ok before ∧ next before = .ok value := by
  cases answer with
  | error fault => exact ⟨nofun, nofun⟩
  | ok before =>
    constructor
    · intro given
      exact ⟨before, rfl, given⟩
    · rintro ⟨_, same, given⟩
      cases same
      exact given

theorem eq_ok_of_toOption {value : Value} (given : answer.toOption = some value) : answer = .ok value := by
  cases answer with
  | error fault => cases given
  | ok other => cases given; rfl

end TapeMachine
