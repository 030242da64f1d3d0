import TapeMachine.Proofs.NormalForm

namespace TapeMachine

def blanks (count : Nat) : List Symbol := List.replicate count blank

namespace HalfTape

/-- The cells with so many blanks behind them that `kept` can be kept. -/
def padTo (kept : Nat) (cells : HalfTape) : HalfTape := cells ++ blanks (kept - cells.length)

theorem read_blanks (count index : Nat) : read (blanks count) index = blank := by
  by_cases within : index < count
  · simp [read, blanks, within]
  · exact read_of_length_le (by rw [blanks, List.length_replicate]; omega)

theorem read_padTo (kept : Nat) (cells : HalfTape) (index : Nat) : read (padTo kept cells) index = read cells index := by
  rw [padTo, read_append]
  split
  · rfl
  · rename_i beyond
    rw [read_blanks, read_of_length_le (Nat.le_of_not_lt beyond)]

theorem length_padTo (kept : Nat) (cells : HalfTape) : (padTo kept cells).length = max cells.length kept := by
  rw [padTo, List.length_append, blanks, List.length_replicate]
  omega

theorem Canonical.padTo {kept larger : Nat} {cells : HalfTape} (canonical : Canonical kept cells)
    (enough : kept ≤ larger) : Canonical larger (padTo larger cells) := by
  have length := length_padTo larger cells
  refine ⟨by omega, ?_⟩
  intro bound above beyond
  have shorter : cells.length ≤ bound := by
    refine canonical.length_le bound (by omega) fun index below => ?_
    rw [← read_padTo larger cells index]
    exact beyond index below
  omega

end HalfTape

namespace Tape

/-- The tape as it would be if so many blanks had followed its input. -/
def padded (count : Nat) (tape : Tape) : Tape :=
  { tape with right := HalfTape.padTo (tape.seeded + count) tape.right, seeded := tape.seeded + count }

/-- How many of those blanks it would store behind its other cells. -/
def spare (count : Nat) (tape : Tape) : Nat := tape.seeded + count - tape.right.length

theorem read_padded (count : Nat) (tape : Tape) (position : Int) :
    (tape.padded count).read position = tape.read position := by
  cases position with
  | ofNat index => exact HalfTape.read_padTo (tape.seeded + count) tape.right index
  | negSucc index => rfl

theorem toList_padded (count : Nat) (tape : Tape) :
    (tape.padded count).toList = tape.toList ++ blanks (tape.spare count) :=
  (List.append_assoc ..).symm

theorem Canonical.padded {tape : Tape} (canonical : tape.Canonical) (count : Nat) :
    (tape.padded count).Canonical :=
  ⟨canonical.left, canonical.right.padTo (Nat.le_add_right ..)⟩

/-- Blanks behind the input stay where they are: a write only takes the cells before them. -/
theorem Canonical.write_padded {tape : Tape} (canonical : tape.Canonical) (count : Nat) (target : Int)
    (symbol : Symbol) : (tape.padded count).write target symbol = (tape.write target symbol).padded count := by
  have written := (canonical.padded count).write target symbol
  have paddedLast := (canonical.write target symbol).padded count
  refine written.ext paddedLast ?_ fun position => ?_
  · rw [seeded_write]
    exact congrArg (· + count) (seeded_write tape target symbol).symm
  · rw [read_write, read_padded, read_padded, read_write]

theorem padded_ofString (count : Nat) (input : String) :
    ofString (input ++ String.ofList (blanks count)) = (ofString input).padded count := by
  have symbols : (input ++ String.ofList (blanks count)).toList = input.toList ++ blanks count := by
    rw [String.toList_append, String.toList_ofList]
  have stored : HalfTape.padTo (input.toList.length + count) input.toList = input.toList ++ blanks count := by
    rw [HalfTape.padTo, Nat.add_sub_cancel_left]
  have length : (input.toList ++ blanks count).length = input.toList.length + count := by
    rw [List.length_append, blanks, List.length_replicate]
  simp only [ofString, padded, symbols, stored, length]

end Tape

/-- What a step answers when so many more blanks are stored behind the tape. -/
def Step.padded (count : Nat) : Step → Step
  | applied tape head isTerminal rule => .applied (tape ++ blanks count) head isTerminal rule
  | reverted tape head isTerminal => .reverted (tape ++ blanks count) head isTerminal
  | step => step

def Reply.padded (count : Nat) : Reply → Reply
  | stepped step => .stepped (step.padded count)
  | reply => reply

def Operation.KeepsInput : Operation → Prop
  | setTape _ => False
  | _ => True

theorem Operation.lastInput_eq {operations : List Operation}
    (kept : ∀ operation ∈ operations, operation.KeepsInput) (input : String) : lastInput input operations = input := by
  induction operations with
  | nil => rfl
  | cons operation operations ih =>
    have keptHere := kept operation (List.mem_cons_self ..)
    have keptLater := ih fun later member => kept later (List.mem_cons_of_mem _ member)
    cases operation with
    | setTape next => exact keptHere.elim
    | _ => exact keptLater

namespace Machine

/-- The machine as it would be if so many blanks had followed its input. -/
def padded (count : Nat) (machine : Machine) : Machine :=
  { machine with
    input := machine.input ++ String.ofList (blanks count)
    tape := machine.tape.padded count }

variable {machine : Machine} (count : Nat)

theorem start_padded (table : Table) (input : String) (state : State) :
    start table (input ++ String.ofList (blanks count)) state = (start table input state).padded count := by
  have fresh := Tape.padded_ofString count input
  simp only [start, padded, fresh]

theorem action_padded (machine : Machine) : (machine.padded count).action = machine.action := by
  have symbol : (machine.padded count).symbol = machine.symbol := machine.tape.read_padded count machine.head
  unfold action
  rw [symbol]
  rfl

theorem Consistent.perform_padded (consistent : machine.Consistent) (action : Action) :
    (machine.padded count).perform action = (machine.perform action).padded count := by
  cases action with
  | stay => rfl
  | abort reason => rfl
  | apply index rule offset =>
    have written := consistent.tape.write_padded count machine.head rule.write
    simp only [perform, padded, written]

theorem outcome_padded (machine : Machine) (action : Action) :
    (machine.padded count).outcome action = (machine.outcome action).padded (machine.tape.spare count) := by
  cases action with
  | stay => rfl
  | abort reason => rfl
  | apply index rule offset =>
    have shown := machine.tape.toList_padded count
    simp only [outcome, padded, Step.padded, shown, isHalted]

theorem Consistent.advance_padded (consistent : machine.Consistent) :
    (machine.padded count).advance = machine.advance.padded count := by
  rw [Machine.advance, action_padded, consistent.perform_padded]
  rfl

theorem Consistent.step_padded (consistent : machine.Consistent) :
    (machine.padded count).step =
      (machine.step.1.padded (machine.advance.tape.spare count), machine.step.2.padded count) := by
  simp only [step, consistent.advance_padded, action_padded, outcome_padded]

theorem Consistent.iterate_padded (consistent : machine.Consistent) (steps : Nat) :
    Machine.advance^[steps] (machine.padded count) = (Machine.advance^[steps] machine).padded count := by
  induction steps with
  | zero => rfl
  | succ steps ih =>
    rw [Function.iterate_succ_apply', Function.iterate_succ_apply', ih, (consistent.iterate steps).advance_padded]

theorem reverted_padded (machine : Machine) :
    (machine.padded count).reverted = machine.reverted.padded (machine.tape.spare count) := by
  have shown := machine.tape.toList_padded count
  simp only [reverted, padded, Step.padded, shown, isHalted]

/-- Going back finds the machine that the latest step came from, and with more blanks that step came
from the same machine with more blanks. -/
theorem Normal.back_padded (normal : machine.Normal) :
    (machine.padded count).back =
      (machine.back.1.padded (machine.back.2.tape.spare count), machine.back.2.padded count) := by
  cases behind : machine.clock with
  | zero =>
    have zero : (machine.padded count).clock = 0 := behind
    rw [back_of_clock_eq_zero behind, back_of_clock_eq_zero zero]
    rfl
  | succ steps =>
    obtain ⟨before, beforeNormal, running, _, _, reached, undone⟩ := normal.previous behind
    have consistent : (before.padded count).Consistent :=
      ⟨beforeNormal.consistent.tape.padded count, beforeNormal.consistent.aborted⟩
    have undonePadded := consistent.back_advance running
    rw [beforeNormal.consistent.advance_padded, reached, reverted_padded] at undonePadded
    rw [undone, undonePadded]

theorem Normal.operate_padded (normal : machine.Normal) {operation : Operation} (kept : operation.KeepsInput) :
    (machine.padded count).reply operation =
        (machine.reply operation).padded ((machine.operate operation).tape.spare count) ∧
      (machine.padded count).operate operation = (machine.operate operation).padded count := by
  cases operation with
  | step =>
    have same := normal.consistent.step_padded count
    exact ⟨by rw [reply, same]; rfl, congrArg Prod.snd same⟩
  | back =>
    have same := normal.back_padded count
    exact ⟨by rw [reply, same]; rfl, congrArg Prod.snd same⟩
  | runLimit limit =>
    have same : advanceUpTo limit (machine.padded count) = (advanceUpTo limit machine).padded count := by
      rw [advanceUpTo_eq_iterate, advanceUpTo_eq_iterate, normal.consistent.iterate_padded]
    refine ⟨?_, same⟩
    simp only [reply, runLimit, same]
    rfl
  | setTape input => exact kept.elim
  | reset => exact ⟨rfl, start_padded count machine.table machine.input machine.initialState⟩

theorem Normal.operateAll_padded (normal : machine.Normal) {operations : List Operation}
    (kept : ∀ operation ∈ operations, operation.KeepsInput) :
    (machine.padded count).operateAll operations = (machine.operateAll operations).padded count := by
  induction operations generalizing machine with
  | nil => rfl
  | cons operation operations ih =>
    have keptHere := kept operation (List.mem_cons_self ..)
    have next := (normal.operate_padded count keptHere).2
    have later := ih (normal.operate operation) fun later member => kept later (List.mem_cons_of_mem _ member)
    rw [← next] at later
    exact later

/-- The blanks behind the tape, counted from the end of what the machine without them stores. -/
theorem Normal.spare_eq {machine : Machine} (normal : machine.Normal) :
    machine.tape.spare count = (max 0 (machine.input.toList.length + count - machine.tape.limit)).toNat := by
  have seeded := normal.seeded
  simp only [Tape.spare, Tape.limit]
  omega

/-- Blanks at the end of the input change nothing but how many blanks are stored behind the tape: as
many as lie between the end of what is stored without them and the end of the longer input. -/
theorem trailing_blanks_invisible {table : Table} {input : String} {initial : Option State} {machine : Machine}
    (built : ofTable? table input initial = some machine) (count : Nat) :
    ∃ twin, ofTable? table (input ++ String.ofList (List.replicate count '_')) initial = some twin ∧
      ∀ operations, (∀ operation ∈ operations, operation.KeepsInput) →
        let used := machine.operateAll operations
        let twinUsed := twin.operateAll operations
        let extra (limit : Int) : Nat := (max 0 (input.toList.length + count - limit)).toNat
        (twinUsed.state = used.state ∧ twinUsed.head = used.head ∧ twinUsed.history = used.history ∧
          twinUsed.abortedFrom = used.abortedFrom ∧ twinUsed.tape.origin = used.tape.origin ∧
          (∀ position, twinUsed.tape.read position = used.tape.read position) ∧
          twinUsed.tape.toList = used.tape.toList ++ List.replicate (extra used.tape.limit) '_') ∧
        ∀ operation, operation.KeepsInput →
          twinUsed.reply operation = (used.reply operation).padded (extra (used.operate operation).tape.limit) := by
  obtain ⟨state, chosen, rfl⟩ := ofTable?_eq_some_iff.mp built
  refine ⟨(start table input state).padded count, ?_, ?_⟩
  · exact ofTable?_eq_some_iff.mpr ⟨state, chosen, start_padded count table input state⟩
  intro operations kept used twinUsed extra
  have normal : used.Normal := (Normal.start table input state).operateAll operations
  have isPadded : twinUsed = used.padded count := (Normal.start table input state).operateAll_padded count kept
  have usedInput : used.input = input := by
    have setup := congrArg Machine.input (reset_operateAll (start table input state) operations)
    exact setup.trans (Operation.lastInput_eq kept input)
  refine ⟨?_, ?_⟩
  · rw [isPadded]
    refine ⟨rfl, rfl, rfl, rfl, rfl, used.tape.read_padded count, ?_⟩
    have spare := normal.spare_eq count
    have shown := used.tape.toList_padded count
    rw [usedInput] at spare
    rw [spare] at shown
    exact shown
  · intro operation keptHere
    have spare := (normal.operate operation).spare_eq count
    rw [input_operate, Operation.lastInput_eq (by simpa using keptHere), usedInput] at spare
    have answered := (normal.operate_padded count keptHere).1
    rw [spare] at answered
    rw [isPadded]
    exact answered

/-- Two blanks behind the input, of which the head takes one while it writes there, and gives it back. -/
theorem trailing_blanks_invisible_written :
    let table : Table := ⟨[⟨"q", '0', '0', .right, "q"⟩, ⟨"q", '_', '1', .left, "p"⟩]⟩
    let machine := start table "0" "q"
    let twin := start table "0__" "q"
    let operations : List Operation := [.step, .runLimit 1]
    ofTable? table "0" none = some machine ∧ (∀ operation ∈ operations, operation.KeepsInput) ∧
      ofTable? table "0__" none = some twin ∧
      (machine.operateAll operations).tape.toList = ['0', '1'] ∧
      (twin.operateAll operations).tape.toList = ['0', '1'] ++ ['_'] ∧
      (twin.operateAll operations).reply .back = .stepped (.reverted (['0'] ++ ['_', '_']) 1 false) := by
  intro table machine twin operations
  have built : ofTable? table "0" none = some machine := rfl
  have builtTwin : ofTable? table "0__" none = some twin := rfl
  have kept : ∀ operation ∈ operations, operation.KeepsInput := by
    simp [operations, Operation.KeepsInput]
  have stored : (machine.operateAll operations).tape.toList = ['0', '1'] := by decide
  have limit : (machine.operateAll operations).tape.limit = 2 := by decide
  have limitBack : ((machine.operateAll operations).operate .back).tape.limit = 1 := by decide
  obtain ⟨_, made, alike⟩ := trailing_blanks_invisible built 2
  cases Option.some.inj (made.symm.trans builtTwin)
  obtain ⟨⟨_, _, _, _, _, _, same⟩, replies⟩ := alike operations kept
  refine ⟨built, kept, builtTwin, stored, ?_, ?_⟩
  · rw [same, stored, limit]
    rfl
  · have answered : (machine.operateAll operations).back.1 = .reverted ['0'] 1 false := by decide
    rw [replies .back trivial, limitBack, reply, answered]
    rfl

end Machine

end TapeMachine
