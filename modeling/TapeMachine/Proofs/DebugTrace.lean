import TapeMachine.CommandLine
import TapeMachine.Proofs.BoundedRuns

namespace TapeMachine

theorem Halt.ofState?_eq_some_iff {state : State} {halt : Halt} : ofState? state = some halt ↔ state = halt.state := by
  constructor
  · intro found
    simpa [eq_comm] using List.find?_some found
  · rintro rfl
    cases halt <;> decide

namespace Machine

theorem halt?_eq_some_iff {machine : Machine} {halt : Halt} : machine.halt? = some halt ↔ machine.state = halt.state :=
  Halt.ofState?_eq_some_iff

theorem halt?_eq_none_iff {machine : Machine} : machine.halt? = none ↔ machine.isHalted = false := by
  rw [isHalted, State.isTerminal, halt?, Option.isSome_eq_false_iff, Option.isNone_iff_eq_none]

/-- Keeping a record of the steps does not change where they lead. -/
theorem trace_snd (limit : Nat) (machine : Machine) : (machine.trace limit).2 = advanceUpTo limit machine := by
  induction limit generalizing machine with
  | zero => rfl
  | succ limit ih =>
    unfold trace advanceUpTo
    split
    · rfl
    · exact ih machine.advance

/-- A machine that is in a terminal state by some step is in it from then on. -/
theorem exists_state_iff {machine : Machine} {limit : Nat} (halt : Halt) :
    (∃ count ≤ limit, (calls step count machine).2.state = halt.state) ↔
      (machine.runLimit limit).2.state = halt.state := by
  rw [runLimit_snd]
  constructor
  · rintro ⟨count, within, reached⟩
    rw [calls_step_snd] at reached
    have halted : (advance^[count] machine).isHalted = true := by
      rw [isHalted, reached, Halt.isTerminal_state]
    rw [iterate_advance_of_le halted within, reached]
  · intro reached
    refine ⟨limit, le_rfl, ?_⟩
    rw [calls_step_snd, reached]

end Machine

namespace CommandLine

open Machine

def Options.withDebug (options : Options) (debug : Bool) : Options := { options with debug }

theorem run_withDebug_of_error {options : Options} {content : Content} {error : RunError}
    (listing : options.list = false) (unbuilt : buildMachine options content = .error error) (debug : Bool) :
    run (options.withDebug debug) content = .failed [] error := by
  have same : buildMachine (options.withDebug debug) content = buildMachine options content := rfl
  have notListing : ¬ (options.withDebug debug).list = true := by simp [Options.withDebug, listing]
  rw [run, if_neg notListing, same, unbuilt]

theorem run_withDebug_of_ok {options : Options} {content : Content} {machine : Machine}
    (listing : options.list = false) (built : buildMachine options content = .ok machine) (debug : Bool) :
    run (options.withDebug debug) content = runMachine (options.withDebug debug) machine := by
  have same : buildMachine (options.withDebug debug) content = buildMachine options content := rfl
  have notListing : ¬ (options.withDebug debug).list = true := by simp [Options.withDebug, listing]
  rw [run, if_neg notListing, same, built]

/-- Both loops leave the same machine, and they part only in what has been shown before it. -/
theorem runMachine_eq_finish (options : Options) (machine : Machine) :
    runMachine options machine =
      finish options (if options.debug then traceLines options.json machine (machine.trace options.maxSteps).1 else [])
        (machine.runLimit options.maxSteps).2 := by
  unfold runMachine
  by_cases debug : options.debug = true
  · have last : (machine.runLimit options.maxSteps).2 = (machine.trace options.maxSteps).2 :=
      (trace_snd options.maxSteps machine).symm
    rw [if_pos debug, if_pos debug, last]
  · rw [if_neg debug, if_neg debug]
    cases halted : (advance^[options.maxSteps] machine).isHalted with
    | true => simp only [runLimit_of_halted halted]
    | false =>
      have unfinished := halt?_eq_none_iff.mpr halted
      simp only [runLimit_of_running halted, finish, unfinished]

section

variable (options : Options) (trace : List String) (machine : Machine)

/-- Whether every step is shown has no say in the exit code. -/
theorem exit_finish : (finish options trace machine).exit = (machine.halt?.map exitCode).getD 2 := by
  unfold finish
  cases machine.halt? <;> rfl

theorem errors_finish :
    (finish options trace machine).errors =
      if machine.isHalted then [] else [s!"Error: Machine did not halt within {options.maxSteps} steps"] := by
  unfold finish
  cases ended : machine.halt? with
  | none => rw [halt?_eq_none_iff.mp ended]; rfl
  | some halt => rw [isHalted, State.isTerminal, ← halt?, ended]; rfl

theorem output_finish :
    (finish options trace machine).output = trace ++
      if machine.isHalted then (if options.debug && !options.json then [""] else []) ++ resultLines options.json machine
      else [] := by
  unfold finish
  cases ended : machine.halt? with
  | none => rw [halt?_eq_none_iff.mp ended]; exact (List.append_nil trace).symm
  | some halt => rw [isHalted, State.isTerminal, ← halt?, ended]; exact List.append_assoc ..

end

theorem exit_finish_eq_zero_iff {options : Options} {trace : List String} {machine : Machine} :
    (finish options trace machine).exit = 0 ↔ machine.state = Halt.accept.state := by
  rw [exit_finish, ← halt?_eq_some_iff]
  cases machine.halt? with
  | none => simp
  | some halt => cases halt <;> simp [exitCode]

theorem exit_finish_eq_one_iff {options : Options} {trace : List String} {machine : Machine} :
    (finish options trace machine).exit = 1 ↔
      machine.state = Halt.reject.state ∨ machine.state = Halt.abort.state := by
  rw [exit_finish, ← halt?_eq_some_iff, ← halt?_eq_some_iff]
  cases machine.halt? with
  | none => simp
  | some halt => cases halt <;> simp [exitCode]

theorem exit_finish_eq_two_iff {options : Options} {trace : List String} {machine : Machine} :
    (finish options trace machine).exit = 2 ↔ machine.isHalted = false := by
  rw [exit_finish, ← halt?_eq_none_iff]
  cases machine.halt? with
  | none => simp
  | some halt => cases halt <;> simp [exitCode]

theorem exit_finish_cases (options : Options) (trace : List String) (machine : Machine) :
    (finish options trace machine).exit = 0 ∨ (finish options trace machine).exit = 1 ∨
      (finish options trace machine).exit = 2 := by
  rw [exit_finish]
  cases machine.halt? with
  | none => exact Or.inr (Or.inr rfl)
  | some halt => cases halt <;> simp [exitCode]

theorem isHalted_of_exit_finish {options : Options} {trace : List String} {machine : Machine}
    (ended : (finish options trace machine).exit = 0 ∨ (finish options trace machine).exit = 1) :
    machine.isHalted = true := by
  by_contra running
  rw [exit_finish_eq_two_iff.mpr (by simpa using running)] at ended
  omega

/-- Above the result stands what has been shown of the steps, and in plain text an empty line. -/
theorem output_finish_withDebug (options : Options) (trace : List String) {machine : Machine}
    (halted : machine.isHalted = true) :
    (finish (options.withDebug true) trace machine).output =
      trace ++ (if options.json then [] else [""]) ++ (finish (options.withDebug false) [] machine).output := by
  rw [output_finish, output_finish, halted]
  cases json : options.json <;> simp [Options.withDebug, json]

/-- Showing every step only adds lines above the result: the exit code and the lines of errors stay the
same. The exit code tells whether the machine accepts, ends otherwise, or does not end in so many steps. -/
theorem debug_adds_trace {options : Options} (listing : options.list = false) (content : Content) :
    let plain := run (options.withDebug false) content
    let traced := run (options.withDebug true) content
    let reaches (machine : Machine) (state : State) : Prop :=
      ∃ count ≤ options.maxSteps, (calls step count machine).2.state = state
    (traced.exit = plain.exit ∧ traced.errors = plain.errors) ∧
      (∀ error, buildMachine options content = .error error → plain.output = [] ∧ traced.output = []) ∧
      (∀ machine, buildMachine options content = .ok machine →
        ((calls step options.maxSteps machine).2.isHalted = false →
          (plain.exit = 2 ∧ traced.exit = 2) ∧
            plain.errors = [s!"Error: Machine did not halt within {options.maxSteps} steps"] ∧
            traced.errors = plain.errors) ∧
        (plain.exit = 0 ∨ plain.exit = 1 →
          traced.output = traceLines options.json machine (machine.trace options.maxSteps).1 ++
            (if options.json then [] else [""]) ++ plain.output)) ∧
      (plain.exit = 0 ↔ ∃ machine, buildMachine options content = .ok machine ∧ reaches machine "halt-accept") ∧
      (plain.exit = 1 ↔ ∃ machine, buildMachine options content = .ok machine ∧
        (reaches machine "halt-reject" ∨ reaches machine "halt-abort")) ∧
      (plain.exit = 0 ∨ plain.exit = 1 ∨ plain.exit = 2) := by
  intro plain traced reaches
  cases built : buildMachine options content with
  | error error =>
    have isPlain : plain = .failed [] error := run_withDebug_of_error listing built false
    have isTraced : traced = .failed [] error := run_withDebug_of_error listing built true
    rw [isPlain, isTraced]
    simp [Outcome.failed]
  | ok machine =>
    have isPlain : plain = finish (options.withDebug false) [] (machine.runLimit options.maxSteps).2 :=
      (run_withDebug_of_ok listing built false).trans (runMachine_eq_finish _ machine)
    have isTraced : traced = finish (options.withDebug true)
        (traceLines options.json machine (machine.trace options.maxSteps).1) (machine.runLimit options.maxSteps).2 :=
      (run_withDebug_of_ok listing built true).trans (runMachine_eq_finish _ machine)
    have reached (halt : Halt) : reaches machine halt.state ↔ (machine.runLimit options.maxSteps).2.state = halt.state :=
      exists_state_iff halt
    have last : (calls step options.maxSteps machine).2 = (machine.runLimit options.maxSteps).2 := by
      rw [calls_step_snd, runLimit_snd]
    refine ⟨⟨?_, ?_⟩, nofun, ?_, ?_, ?_, ?_⟩
    · rw [isPlain, isTraced, exit_finish, exit_finish]
    · rw [isPlain, isTraced, errors_finish, errors_finish]
      rfl
    · intro other same
      cases same
      rw [last, isPlain, isTraced]
      refine ⟨fun running => ?_, fun ended => ?_⟩
      · rw [exit_finish_eq_two_iff, exit_finish_eq_two_iff, errors_finish, errors_finish, running]
        exact ⟨⟨rfl, rfl⟩, rfl, rfl⟩
      · exact output_finish_withDebug options _ (isHalted_of_exit_finish ended)
    · rw [isPlain, exit_finish_eq_zero_iff, ← reached]
      refine ⟨fun accepts => ⟨machine, rfl, accepts⟩, ?_⟩
      rintro ⟨other, same, accepts⟩
      cases same
      exact accepts
    · rw [isPlain, exit_finish_eq_one_iff, ← reached, ← reached]
      refine ⟨fun ends => ⟨machine, rfl, ends⟩, ?_⟩
      rintro ⟨other, same, ends⟩
      cases same
      exact ends
    · rw [isPlain]
      exact exit_finish_cases _ _ _

/-- The second step of two permitted ones accepts. With every step shown, three lines and an empty one
stand above the result. -/
theorem debug_adds_trace_accepting :
    let options : Options := { program := none, builtin := none, rules := ["q 0 1 r q", "q _ _ l halt-accept"]
                               tape := some "0", initialState := none, maxSteps := 2, strict := true, debug := false
                               json := false, list := false }
    let plain := run (options.withDebug false) (.ok ByteArray.empty)
    let traced := run (options.withDebug true) (.ok ByteArray.empty)
    options.list = false ∧ plain = ⟨0, ["halt-accept", "1"], []⟩ ∧ traced.exit = 0 ∧ traced.errors = [] ∧
      traced.output = ["Step: 0, State: q, Head: 0, Tape: [0]", "Step: 1, State: q, Head: 1, Tape: [1], Rule: q 0 1 r q",
        "Step: 2, State: halt-accept, Head: 0, Tape: [1], Rule: q _ _ l halt-accept", "", "halt-accept", "1"] := by
  intro options plain traced
  have listing : options.list = false := rfl
  have isPlain : plain = ⟨0, ["halt-accept", "1"], []⟩ := by decide +kernel
  obtain ⟨⟨exit, errors⟩, _, shown, _⟩ := debug_adds_trace listing (.ok ByteArray.empty)
  let machine := start ⟨[⟨"q", '0', '1', .right, "q"⟩, ⟨"q", '_', '_', .left, "halt-accept"⟩]⟩ "0" "q"
  have made : (buildMachine options (.ok ByteArray.empty)).toOption = some machine := by decide +kernel
  have built : buildMachine options (.ok ByteArray.empty) = .ok machine := by
    generalize buildMachine options (.ok ByteArray.empty) = outcome at made
    cases outcome with
    | error error => cases made
    | ok other => exact congrArg Except.ok (Option.some.inj made)
  refine ⟨listing, isPlain, exit.trans (congrArg Outcome.exit isPlain), errors.trans (congrArg Outcome.errors isPlain), ?_⟩
  refine ((shown machine built).2 (Or.inl (congrArg Outcome.exit isPlain))).trans ?_
  have below : (run (options.withDebug false) (.ok ByteArray.empty)).output = ["halt-accept", "1"] :=
    congrArg Outcome.output isPlain
  rw [below]
  decide +kernel

end CommandLine

end TapeMachine
