import TapeMachine.Proofs.DebugTrace
import TapeMachine.Proofs.HeadReach
import TapeMachine.Proofs.PrintedLine
import TapeMachine.Proofs.StepMembers
import TapeMachine.Proofs.Sweep

namespace TapeMachine

open Json

/-- A configuration as one line shows it. -/
structure Shown where
  state : State
  head : Int
  cells : List Symbol
deriving DecidableEq

/-- The configuration that an applied rule led to. Other steps show none. -/
def Step.shown? : Step → Option Shown
  | applied cells head _ rule => some ⟨rule.next, head, cells⟩
  | _ => none

/-- The positions and the places of rules in a step have 64 bits. -/
def Step.InWords : Step → Prop
  | applied _ head _ _ | reverted _ head _ => FitsSigned head
  | aborted reason => reason.Fits
  | halted _ | noOp => True

namespace Machine

def shown (machine : Machine) : Shown := ⟨machine.state, machine.head, machine.tape.toList⟩

/-- The configuration that the last of some applied rules led to, or else the one at the start. -/
def lastShown (machine : Machine) (applied : List Step) : Shown :=
  (applied.getLast?.bind Step.shown?).getD machine.shown

/-- Behind a step that shows the next configuration, later steps tell the same as if they began there. -/
theorem lastShown_cons {machine next : Machine} {step : Step} (shows : step.shown? = some next.shown)
    {applied : List Step} (each : ∀ step ∈ applied, step.shown?.isSome) :
    machine.lastShown (step :: applied) = next.lastShown applied := by
  cases atLast : applied.getLast? with
  | none =>
    rw [List.getLast?_eq_none_iff] at atLast
    simp [lastShown, atLast, shows]
  | some last =>
    obtain ⟨view, isView⟩ := Option.isSome_iff_exists.mp (each last (List.mem_of_getLast? atLast))
    simp [lastShown, List.getLast?_cons, atLast, isView]

/-- What the answers to the steps from `machine` to `last` tell: rules were applied, the last of which led
to where the head and the cells are now, and perhaps an abort came after them. -/
structure Account (machine : Machine) (steps applied : List Step) (aborted : Option Abort) (last : Machine) : Prop where
  order : steps = applied ++ aborted.toList.map .aborted
  each : ∀ step ∈ applied, step.shown?.isSome
  count : last.stepCount = machine.stepCount + applied.length
  shown : last.shown = { machine.lastShown applied with
    state := if aborted.isSome then Halt.abort.state else (machine.lastShown applied).state }

namespace Account

theorem start (machine : Machine) : machine.Account [] [] none machine :=
  ⟨rfl, List.forall_mem_nil _, rfl, rfl⟩

theorem abort (machine : Machine) (reason : Abort) :
    machine.Account [.aborted reason] [] (some reason) (machine.perform (.abort reason)) :=
  ⟨rfl, List.forall_mem_nil _, rfl, rfl⟩

theorem apply {machine last : Machine} {index : Nat} {rule : Rule} {offset : Int} {steps applied : List Step}
    {aborted : Option Abort}
    (later : (machine.perform (.apply index rule offset)).Account steps applied aborted last) :
    let next := machine.perform (.apply index rule offset)
    let first := next.outcome (.apply index rule offset)
    machine.Account (first :: steps) (first :: applied) aborted last := by
  intro next first
  have shows : first.shown? = some next.shown := rfl
  have count : next.stepCount = machine.stepCount + 1 := rfl
  refine ⟨congrArg (first :: ·) later.order, ?_, ?_, ?_⟩
  · exact List.forall_mem_cons.mpr ⟨by rw [shows]; rfl, later.each⟩
  · rw [later.count, count, List.length_cons]
    omega
  · rw [later.shown, lastShown_cons shows later.each]

end Account

/-- What a step of a running machine answers: an abort, or the rule that it applies. -/
theorem step_of_running {machine : Machine} (running : machine.isHalted = false) :
    (∃ reason, machine.step = (.aborted reason, machine.perform (.abort reason))) ∨
      ∃ index rule offset, rule.move.offset? = some offset ∧
        machine.step = ((machine.perform (.apply index rule offset)).outcome (.apply index rule offset),
          machine.perform (.apply index rule offset)) := by
  have acts := machine.acts
  have next := step_eq_of_acts acts
  generalize machine.action = action at acts next
  cases acts with
  | stay halted => simp [running] at halted
  | undefined => exact Or.inl ⟨_, next⟩
  | invalid => exact Or.inl ⟨_, next⟩
  | apply _ _ move => exact Or.inr ⟨_, _, _, move, next⟩

/-- As long as a machine runs, its steps apply rules. A step that aborts is the last one. -/
theorem exists_account {machine : Machine} {count : Nat}
    (running : ∀ earlier < count, (calls step earlier machine).2.isHalted = false) :
    ∃ applied aborted, machine.Account (calls step count machine).1 applied aborted (calls step count machine).2 := by
  induction count generalizing machine with
  | zero => exact ⟨[], none, Account.start machine⟩
  | succ count ih =>
    have here : machine.isHalted = false := running 0 (Nat.succ_pos count)
    have later : ∀ earlier < count, (calls step earlier machine.step.2).2.isHalted = false :=
      fun earlier before => running (earlier + 1) (Nat.succ_lt_succ before)
    rw [calls]
    rcases step_of_running here with ⟨reason, next⟩ | ⟨index, rule, offset, _, next⟩
    · have ended : machine.step.2.isHalted = true := by
        rw [next]
        exact Halt.isTerminal_state .abort
      cases count with
      | zero =>
        rw [next]
        exact ⟨[], some reason, Account.abort machine reason⟩
      | succ more =>
        rw [show machine.step.2.isHalted = false from later 0 (Nat.succ_pos more)] at ended
        contradiction
    · obtain ⟨applied, aborted, account⟩ := ih later
      rw [next] at account ⊢
      exact ⟨_, aborted, account.apply⟩

/-- A record of steps is the answers to as many calls, each of a machine that was still running. -/
theorem trace_eq_calls (limit : Nat) (machine : Machine) :
    ∃ count ≤ limit, (machine.trace limit).1.map Prod.fst = (calls step count machine).1 ∧
      (machine.trace limit).2 = (calls step count machine).2 ∧
      ∀ earlier < count, (calls step earlier machine).2.isHalted = false := by
  induction limit generalizing machine with
  | zero => exact ⟨0, le_rfl, rfl, rfl, fun earlier before => absurd before (Nat.not_lt_zero earlier)⟩
  | succ limit ih =>
    unfold trace
    split
    · exact ⟨0, Nat.zero_le _, rfl, rfl, fun earlier before => absurd before (Nat.not_lt_zero earlier)⟩
    · rename_i running
      obtain ⟨count, within, steps, last, running'⟩ := ih machine.step.2
      refine ⟨count + 1, Nat.succ_le_succ within, congrArg (machine.step.1 :: ·) steps, last, ?_⟩
      intro earlier before
      cases earlier with
      | zero => exact Bool.eq_false_iff.mpr running
      | succ earlier => exact running' earlier (Nat.lt_of_succ_lt_succ before)

/-- Each of some answers is the answer of the machine at that time. -/
theorem exists_of_mem_calls {machine : Machine} {count : Nat} {answer : Step} (among : answer ∈ (calls step count machine).1) :
    ∃ earlier < count, answer = (calls step earlier machine).2.step.1 := by
  obtain ⟨earlier, within, atEarlier⟩ := List.mem_iff_getElem.mp among
  rw [length_calls] at within
  refine ⟨earlier, within, ?_⟩
  have answered := getElem?_calls step within machine
  rw [List.getElem?_eq_getElem (by rwa [length_calls]), atEarlier] at answered
  exact Option.some.inj answered

end Machine

theorem Direction.recognized_of_offset? {move : Direction} {offset : Int} (known : move.offset? = some offset) :
    move.Recognized := by
  cases move with
  | left => exact ⟨nofun, nofun⟩
  | right => exact ⟨nofun, nofun⟩
  | unknown token => cases known

namespace Machine

/-- What a machine answers to a step can be written down and read again if its numbers have 64 bits: the
rule that was applied has a movement that is known. -/
theorem fits_of_inWords {machine : Machine} (inWords : machine.step.1.InWords) : machine.step.1.Fits := by
  cases halted : machine.isHalted with
  | true =>
    rw [step_eq_of_acts (.stay halted)]
    trivial
  | false =>
    rcases step_of_running halted with ⟨reason, next⟩ | ⟨index, rule, offset, move, next⟩
    · rw [next] at inWords ⊢
      exact inWords
    · rw [next] at inWords ⊢
      exact ⟨inWords, Direction.recognized_of_offset? move⟩

/-- The head is no further away than the steps are many, and an abort names a rule of the table. -/
theorem inWords_of_few {machine : Machine} (normal : machine.Normal) (few : machine.step.2.stepCount < 2 ^ 63)
    (short : machine.table.rules.length ≤ 2 ^ 64) : machine.step.1.InWords := by
  have confined := normal.advance.confined.head
  have acts := machine.acts
  have next := step_eq_of_acts acts
  have moved : machine.advance = machine.step.2 := rfl
  rw [moved] at confined
  rw [next] at few confined ⊢
  dsimp only at few confined ⊢
  generalize machine.action = action at acts few confined ⊢
  cases acts with
  | stay => trivial
  | undefined => trivial
  | invalid _ first =>
    obtain ⟨within, _⟩ := List.getElem?_eq_some_iff.mp first.atIndex
    exact within.trans_le short
  | @apply index rule offset =>
    change FitsSigned (machine.perform (.apply index rule offset)).head
    constructor <;> omega

/-- The answers to the first steps of a machine, each of which can be read from its text. -/
theorem decode_answer {machine : Machine} {count : Nat} {answer : Step} (among : answer ∈ (calls step count machine).1)
    (inWords : answer.InWords) : decodeText Step.decode answer.json.text = .ok answer := by
  obtain ⟨earlier, _, rfl⟩ := exists_of_mem_calls among
  rw [Value.decodeText_text]
  exact Step.decode_members (fits_of_inWords inWords) (List.Perm.refl _)

theorem answer_inWords {machine : Machine} (normal : machine.Normal) (fresh : machine.stepCount = 0) {count : Nat}
    (few : count < 2 ^ 63) (short : machine.table.rules.length ≤ 2 ^ 64) {answer : Step}
    (among : answer ∈ (calls step count machine).1) : answer.InWords := by
  obtain ⟨earlier, before, rfl⟩ := exists_of_mem_calls among
  rw [calls_step_snd]
  refine inWords_of_few (normal.iterate earlier) ?_ (by rwa [table_iterate])
  have steps := stepCount_iterate_le machine (earlier + 1)
  rw [Function.iterate_succ_apply'] at steps
  change (advance^[earlier] machine).advance.stepCount < _
  omega

end Machine

namespace CommandLine

open Machine

theorem exists_machine_of_ended {options : Options} {content : Content} (listing : options.list = false)
    (ended : (run options content).exit = 0 ∨ (run options content).exit = 1) :
    ∃ program machine, options.source.program content = .ok program ∧
      (options.override program).machine = .ok machine ∧ run options content = runMachine options machine := by
  have notListing : ¬ options.list = true := by simp [listing]
  have built : ∃ machine, buildMachine options content = .ok machine ∧ run options content = runMachine options machine := by
    rw [run, if_neg notListing] at ended ⊢
    cases made : buildMachine options content with
    | error error => simp [made, Outcome.failed] at ended
    | ok machine => exact ⟨machine, rfl, rfl⟩
  obtain ⟨machine, built, runs⟩ := built
  unfold buildMachine at built
  cases given : options.source.program content with
  | error error => rw [given] at built; cases built
  | ok program =>
    refine ⟨program, machine, rfl, ?_, runs⟩
    rw [given] at built
    change (options.override program).machine.mapError _ = _ at built
    cases made : (options.override program).machine with
    | error error => rw [made] at built; cases built
    | ok other => rw [made] at built; exact congrArg Except.ok (Except.ok.inj built)

/-- The result shows what the last of the applied rules showed, and the state of an abort if there was one. -/
theorem resultJson_of_account {machine last : Machine} {steps applied : List Step} {aborted : Option Abort}
    (account : machine.Account steps applied aborted last) (fresh : machine.stepCount = 0) :
    let shown := machine.lastShown applied
    resultJson last = .object [("head", .integer shown.head),
      ("state", .string (if aborted.isSome then "halt-abort" else shown.state)),
      ("steps", .integer applied.length), ("tape", .string (String.ofList shown.cells))] := by
  intro shown
  have head : last.head = shown.head := congrArg Shown.head account.shown
  have state : last.state = if aborted.isSome then "halt-abort" else shown.state := congrArg Shown.state account.shown
  have cells : last.tape.toList = shown.cells := congrArg Shown.cells account.shown
  have count : last.stepCount = applied.length := by rw [account.count, fresh, Nat.zero_add]
  rw [resultJson, head, state, count, Tape.text, cells]

/-- With every step shown as JSON, the lines are a faithful record: the configuration at the start, one line
for each step that was taken, and the result, which is what the last of the applied rules showed. A line can
be read as the very step that it stands for if the numbers in it have 64 bits, which those of a run have that
is not longer than positions allow. -/
theorem json_trace_faithful {options : Options} (listing : options.list = false) (debug : options.debug = true)
    (json : options.json = true) (content : Content)
    (ended : (run options content).exit = 0 ∨ (run options content).exit = 1) :
    ∃ (program : Program) (machine : Machine) (count : Nat) (applied : List Step) (aborted : Option Abort),
      options.source.program content = .ok program ∧ (options.override program).machine = .ok machine ∧
      let answers := calls step count machine
      let shown := machine.lastShown applied
      (count ≤ options.maxSteps ∧ (∀ earlier < count, (calls step earlier machine).2.isHalted = false) ∧
        answers.2.isHalted = true) ∧
      (answers.1 = applied ++ aborted.toList.map .aborted ∧ ∀ step ∈ applied, step.shown?.isSome) ∧
      (run options content).output =
        (Value.object [("head", .integer machine.head), ("state", .string machine.state),
          ("tape", .list (machine.tape.toList.map .symbol))]).text ::
        answers.1.map (·.json.text) ++
        [(Value.object [("head", .integer shown.head),
          ("state", .string (if aborted.isSome then "halt-abort" else shown.state)),
          ("steps", .integer applied.length), ("tape", .string (String.ofList shown.cells))]).text] ∧
      (∀ line ∈ (run options content).output, '\n' ∉ line.toList) ∧
      (∀ step ∈ answers.1, step.InWords → decodeText Step.decode step.json.text = .ok step) ∧
      (count < 2 ^ 63 → machine.table.rules.length ≤ 2 ^ 64 → ∀ step ∈ answers.1, step.InWords) := by
  obtain ⟨program, machine, given, built, runs⟩ := exists_machine_of_ended listing ended
  obtain ⟨count, within, steps, last, running⟩ := trace_eq_calls options.maxSteps machine
  obtain ⟨applied, aborted, account⟩ := exists_account running
  obtain ⟨table, made⟩ := Program.ofTable?_of_machine built
  obtain ⟨state, _, isStart⟩ := ofTable?_eq_some_iff.mp made
  have fresh : machine.stepCount = 0 := by rw [← isStart]; rfl
  have normal : machine.Normal := by rw [← isStart]; exact Normal.start ..
  have finishes : run options content =
      finish options (traceLines true machine (machine.trace options.maxSteps).1) (calls step count machine).2 := by
    rw [runs, runMachine, if_pos debug, json, ← last]
  have halted : (calls step count machine).2.isHalted = true := by
    rw [finishes] at ended
    exact isHalted_of_exit_finish ended
  have traced : traceLines true machine (machine.trace options.maxSteps).1 =
      (Configuration.json machine).text :: (calls step count machine).1.map (·.json.text) := by
    rw [← steps, List.map_map]
    rfl
  have output : (run options content).output = (Configuration.json machine).text ::
      (calls step count machine).1.map (·.json.text) ++ [(resultJson (calls step count machine).2).text] := by
    rw [finishes, output_finish, if_pos halted, debug, json, traced]
    rfl
  refine ⟨program, machine, count, applied, aborted, given, built, ⟨within, running, halted⟩,
    ⟨account.order, account.each⟩, ?_, ?_, fun _ among => decode_answer among,
    fun few short _ among => answer_inWords normal fresh few short among⟩
  · rw [output, resultJson_of_account account fresh]
    rfl
  · rw [output]
    simp only [List.cons_append, List.forall_mem_cons, List.forall_mem_append, List.forall_mem_map]
    exact ⟨Value.lineFeed_not_mem_text _, fun _ _ => Value.lineFeed_not_mem_text _, Value.lineFeed_not_mem_text _,
      List.forall_mem_nil _⟩

/-- A rule writes a control character, and no rule fits the state that it leads to. -/
theorem json_trace_faithful_aborted :
    let options : Options := {
      program := none, builtin := none, rules := ["q\" 0 \x01 r p"], tape := some "0😀", initialState := none
      maxSteps := 9, strict := true, debug := true, json := true, list := false }
    let atStart := "\x7b\"head\":0,\"state\":\"q\\\"\",\"tape\":[\"0\",\"😀\"]\x7d"
    let applied := "\x7b\"outcome\":\"applied\",\"tape\":[\"\\u0001\",\"😀\"],\"head\":1,\"is_terminal\":false," ++
      "\"transition\":\x7b\"start\":\"q\\\"\",\"read\":\"0\",\"write\":\"\\u0001\",\"move\":\"r\",\"end\":\"p\"\x7d\x7d"
    let aborted := "\x7b\"outcome\":\"aborted\"," ++
      "\"reason\":\x7b\"UndefinedTransition\":\x7b\"state\":\"p\",\"symbol\":\"😀\"\x7d\x7d\x7d"
    let result := "\x7b\"head\":1,\"state\":\"halt-abort\",\"steps\":1,\"tape\":\"\\u0001😀\"\x7d"
    options.list = false ∧ options.debug = true ∧ options.json = true ∧
      run options (.ok ByteArray.empty) = ⟨1, [atStart, applied, aborted, result], []⟩ ∧
      ∃ (machine : Machine) (count : Nat), (calls step count machine).1.map (·.json.text) = [applied, aborted] ∧
        ∀ answer ∈ (calls step count machine).1, answer.InWords →
          decodeText Step.decode answer.json.text = .ok answer := by
  intro options atStart applied aborted result
  have shown : run options (.ok ByteArray.empty) = ⟨1, [atStart, applied, aborted, result], []⟩ := by decide +kernel
  have exit : (run options (.ok ByteArray.empty)).exit = 1 := congrArg Outcome.exit shown
  obtain ⟨_, machine, count, _, _, _, _, _, _, output, _, decodes, _⟩ :=
    @json_trace_faithful options rfl rfl rfl (.ok ByteArray.empty) (Or.inr exit)
  have lines := output.symm.trans (congrArg Outcome.output shown)
  refine ⟨rfl, rfl, rfl, shown, machine, count, ?_, decodes⟩
  simpa using congrArg (fun lines => lines.tail.dropLast) lines

end CommandLine

end TapeMachine
