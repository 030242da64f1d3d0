import TapeMachine.Proofs.HeadReach
import TapeMachine.Proofs.WordRow

namespace TapeMachine

/-- A machine whose tape is one row of cells. -/
structure RowMachine where
  state : State
  initialState : State
  input : String
  row : CellRow
  head : Int
  table : Table
  trail : List Nat
  abortedFrom : Option State

namespace RowMachine

def isHalted (machine : RowMachine) : Bool := machine.state.isTerminal

def abort (machine : RowMachine) (reason : Abort) : Step × RowMachine :=
  (.aborted reason, { machine with state := Halt.abort.state, abortedFrom := some machine.state })

/-- A forward step with every position computed in words. -/
def step? (machine : RowMachine) : Option (Step × RowMachine) :=
  if machine.isHalted then some (.halted machine.state, machine)
  else do
    let symbol ← machine.row.readWord? machine.head
    match machine.table.find? machine.state symbol with
    | none => return machine.abort (.undefinedTransition machine.state symbol)
    | some (index, rule) =>
      match rule.move.offset? with
      | none => return machine.abort (.invalidDirection index rule.move.token)
      | some offset =>
        let row ← machine.row.writeWord? machine.head rule.write
        let head ← word? (machine.head + offset)
        let next := { machine with state := rule.next, row, head, trail := index :: machine.trail }
        return (.applied next.row.cells next.head next.isHalted rule, next)

def reverted (machine : RowMachine) : Step := .reverted machine.row.cells machine.head machine.isHalted

def unapply? (machine : RowMachine) (rule : Rule) : Option RowMachine := do
  let head ← match rule.move.reverse?.bind Direction.offset? with
    | some offset => word? (machine.head + offset)
    | none => some machine.head
  let row ← machine.row.writeWord? head rule.read
  return { machine with state := rule.start, row, head }

/-- A step back with every position computed in words. -/
def back? (machine : RowMachine) : Option (Step × RowMachine) :=
  match machine.abortedFrom, machine.trail with
  | some state, _ =>
    let before := { machine with state, abortedFrom := none }
    some (before.reverted, before)
  | none, [] => some (.noOp, machine)
  | none, index :: trail =>
    let machine := { machine with trail }
    match machine.table.get? index with
    | none => some (.noOp, machine)
    | some rule => do
      let before ← machine.unapply? rule
      return (before.reverted, before)

end RowMachine

namespace Machine

def rowForm (machine : Machine) : RowMachine :=
  { machine with row := machine.tape.row }

/-- The machine's numbers are words, and so is the position on either side of the head. -/
structure InWords (machine : Machine) : Prop where
  canonical : machine.tape.Canonical
  row : machine.tape.row.Fits
  head : -wordLimit < machine.head ∧ machine.head + 1 < wordLimit

namespace InWords

variable {machine : Machine} (inWords : machine.InWords)
include inWords

theorem readWord? (position : Int) : machine.tape.row.readWord? position = some (machine.tape.read position) := by
  rw [inWords.row.readWord?, Tape.read?_row]

theorem writeWord? (position : Int) (symbol : Symbol) :
    machine.tape.row.writeWord? position symbol = some (machine.tape.write position symbol).row := by
  rw [inWords.row.writeWord?, inWords.canonical.write?_row]

theorem word?_head {move : Direction} {offset : Int} (known : move.offset? = some offset) :
    word? (machine.head + offset) = some (machine.head + offset) := by
  have moves := Direction.offset?_cases known
  have head := inWords.head
  exact word?_eq_some (by omega) (by omega)

theorem step? : machine.rowForm.step? = some (machine.step.1, machine.step.2.rowForm) := by
  have acts := machine.acts
  generalize machine.action = action at acts
  rw [step_eq_of_acts acts]
  have symbol : machine.rowForm.row.readWord? machine.rowForm.head = some machine.symbol := inWords.readWord? machine.head
  have same : machine.rowForm.isHalted = machine.isHalted := rfl
  cases acts with
  | stay halted => exact if_pos halted
  | undefined running unfit =>
    have nothing : machine.rowForm.table.find? machine.rowForm.state machine.symbol = none :=
      Table.find?_eq_none_iff.mpr unfit
    simp only [RowMachine.step?, same, running, symbol, nothing, Option.bind_eq_bind, Option.bind_some]
    rfl
  | @invalid index rule running first move =>
    have found : machine.rowForm.table.find? machine.rowForm.state machine.symbol = some (index, rule) :=
      Table.find?_eq_some_iff.mpr first
    simp only [RowMachine.step?, same, running, symbol, found, move, Option.bind_eq_bind, Option.bind_some]
    rfl
  | @apply index rule offset running first move =>
    have found : machine.rowForm.table.find? machine.rowForm.state machine.symbol = some (index, rule) :=
      Table.find?_eq_some_iff.mpr first
    have written : machine.rowForm.row.writeWord? machine.rowForm.head rule.write =
        some (machine.tape.write machine.head rule.write).row := inWords.writeWord? machine.head rule.write
    have moved : word? (machine.rowForm.head + offset) = some (machine.head + offset) := inWords.word?_head move
    simp only [RowMachine.step?, same, running, symbol, found, move, written, moved, Option.bind_eq_bind,
      Option.bind_some]
    rfl

theorem unapply? (rule : Rule) : machine.rowForm.unapply? rule = some (machine.unapply rule).rowForm := by
  have written := fun position => inWords.writeWord? position rule.read
  have row : machine.rowForm.row = machine.tape.row := rfl
  have head : machine.rowForm.head = machine.head := rfl
  unfold RowMachine.unapply? Machine.unapply
  rw [row, head]
  cases turn : rule.move.reverse?.bind Direction.offset? with
  | none =>
    simp only [written, Option.bind_eq_bind, Option.bind_some, Option.getD_none, Int.add_zero]
    rfl
  | some offset =>
    obtain ⟨reverse, _, known⟩ := Option.bind_eq_some_iff.mp turn
    simp only [inWords.word?_head known, written, Option.bind_eq_bind, Option.bind_some, Option.getD_some]
    rfl

theorem back? : machine.rowForm.back? = some (machine.back.1, machine.back.2.rowForm) := by
  have abortedFrom : machine.rowForm.abortedFrom = machine.abortedFrom := rfl
  have trail : machine.rowForm.trail = machine.trail := rfl
  have table : machine.rowForm.table = machine.table := rfl
  unfold RowMachine.back? Machine.back
  rw [abortedFrom, trail]
  cases machine.abortedFrom with
  | some state => rfl
  | none =>
    cases machine.trail with
    | nil => rfl
    | cons index rest =>
      dsimp only
      rw [table]
      cases machine.table.get? index with
      | none => rfl
      | some rule =>
        let shorter : Machine := { machine with trail := rest, abortedFrom := none }
        have still : shorter.InWords := ⟨inWords.canonical, inWords.row, inWords.head⟩
        change (shorter.rowForm.unapply? rule).bind _ = _
        rw [still.unapply?]
        rfl

end InWords

/-- While the input and the steps leave room, nothing that a machine computes with is beyond the words. -/
theorem Normal.inWords {machine : Machine} (normal : machine.Normal)
    (room : machine.input.length + machine.stepCount < wordLimit - 1) : machine.InWords := by
  have confined := normal.confined
  have head := confined.head
  have origin := confined.origin
  have size := confined.size
  have seeded : machine.tape.seeded = machine.input.length := normal.seeded
  have length := machine.tape.length_cells_row
  simp only [Tape.limit, Tape.origin] at size origin
  refine ⟨normal.consistent.tape, ⟨?_, machine.tape.origin_nonpos, by omega, ?_⟩, by omega⟩
  · change -(wordLimit : Int) ≤ -machine.tape.left.length
    omega
  · change machine.tape.seeded < wordLimit
    omega

/-- The head of a machine is never further from where it began than its steps are many, and on every other
position only. The tape has grown at most to where the head has been. So while the input and the steps leave
room below the greatest word, steps forward and back compute nothing that is not a word, and neither do the
end of the tape, the index of a cell and a write. -/
theorem head_within_steps {table : Table} {input : String} {initial : Option State} {machine : Machine}
    (built : ofTable? table input initial = some machine) (operations : List Operation) :
    let used := machine.operateAll operations
    let length := (Operation.lastInput input operations).length
    let count := used.stepCount
    (-count ≤ used.head ∧ used.head ≤ count ∧ used.head % 2 = count % 2) ∧
    (min 0 (1 - (count : Int)) ≤ used.tape.origin ∧ used.tape.origin ≤ 0) ∧
    (length ≤ used.tape.limit ∧ used.tape.limit ≤ max (length : Int) count) ∧
    (length + count < wordLimit - 1 →
      used.rowForm.step? = some (used.step.1, used.step.2.rowForm) ∧
      used.rowForm.back? = some (used.back.1, used.back.2.rowForm) ∧
      used.tape.row.limitWord? = some used.tape.limit ∧
      (∀ position, used.tape.row.indexWord? position = some (used.tape.row.index? position)) ∧
      ∀ position symbol, used.tape.row.writeWord? position symbol = some (used.tape.write position symbol).row) := by
  intro used length count
  obtain ⟨state, _, rfl⟩ := ofTable?_eq_some_iff.mp built
  have normal : used.Normal := (Normal.start table input state).operateAll operations
  have isInput : used.input = Operation.lastInput input operations :=
    congrArg Machine.input (reset_operateAll (start table input state) operations)
  have confined := normal.confined
  have limit := confined.limit
  rw [isInput] at limit
  refine ⟨⟨confined.head.1, confined.head.2, confined.parity⟩, confined.origin, limit, fun room => ?_⟩
  have inWords := normal.inWords (by rw [isInput]; exact room)
  refine ⟨inWords.step?, inWords.back?, ?_, inWords.row.indexWord?, inWords.writeWord?⟩
  rw [inWords.row.limitWord?, Tape.limit_row]

/-- Three steps to the left from an empty input and one back: the tape has grown by two cells. -/
theorem head_within_steps_left :
    let table : Table := ⟨[⟨"q", '_', '1', .left, "q"⟩]⟩
    let used := (start table "" "q").operateAll [.runLimit 3, .back]
    ofTable? table "" none = some (start table "" "q") ∧
      (-2 ≤ used.head ∧ used.head ≤ 2 ∧ used.head % 2 = 0) ∧ (-1 ≤ used.tape.origin ∧ used.tape.origin ≤ 0) ∧
      0 + 2 < wordLimit - 1 ∧ used.rowForm.step? = some (used.step.1, used.step.2.rowForm) := by
  intro table used
  have built : ofTable? table "" none = some (start table "" "q") := rfl
  have count : ((start table "" "q").operateAll [.runLimit 3, .back]).stepCount = 2 := by decide
  have room : 0 + 2 < wordLimit - 1 := by decide
  obtain ⟨head, origin, _, inWords⟩ := head_within_steps built [.runLimit 3, .back]
  rw [count] at head origin inWords
  exact ⟨built, head, origin, room, (inWords room).1⟩

end Machine

end TapeMachine
