import Mathlib.Logic.Function.Basic
import TapeMachine.Proofs.Operations

namespace TapeMachine

namespace Textbook

/-- A configuration of the machine of the textbooks: every position has a cell. -/
structure Configuration where
  state : State
  head : Int
  cells : Int → Symbol

inductive Event where
  | applied (rule : Rule) (head : Int) (isTerminal : Bool)
  | aborted (reason : Abort)
  | halted (state : State)
deriving DecidableEq

def terminalNames : List State := ["halt-accept", "halt-reject", "halt-abort"]

def inputCells (input : String) (position : Int) : Symbol :=
  if 0 ≤ position then input.toList.getD position.toNat '_' else '_'

/-- Where a computation starts: in the state that is asked for, or else where the first rule does. -/
inductive StartsIn (table : Table) : Option State → State → Prop
  | asked {state} : state ≠ "" → StartsIn table (some state) state
  | first {asked rule rules} : asked = none ∨ asked = some "" → table.rules = rule :: rules →
      StartsIn table asked rule.start

/-- One move. Nothing moves in a terminal state; elsewhere the lowest rule that fits is applied, and
without one, or without a way for the head to go, the computation aborts. -/
inductive Move (table : Table) (before : Configuration) : Event → Configuration → Prop
  | halted : before.state ∈ terminalNames → Move table before (.halted before.state) before
  | undefined : before.state ∉ terminalNames →
      (¬ ∃ rule ∈ table.rules, rule.Fits before.state (before.cells before.head)) →
      Move table before (.aborted (.undefinedTransition before.state (before.cells before.head)))
        { before with state := "halt-abort" }
  | invalid {index rule token} : before.state ∉ terminalNames →
      table.FirstMatch before.state (before.cells before.head) index rule → rule.move = .unknown token →
      Move table before (.aborted (.invalidDirection index token)) { before with state := "halt-abort" }
  | left {index rule} : before.state ∉ terminalNames →
      table.FirstMatch before.state (before.cells before.head) index rule → rule.move = .left →
      Move table before (.applied rule (before.head - 1) (rule.next ∈ terminalNames))
        ⟨rule.next, before.head - 1, Function.update before.cells before.head rule.write⟩
  | right {index rule} : before.state ∉ terminalNames →
      table.FirstMatch before.state (before.cells before.head) index rule → rule.move = .right →
      Move table before (.applied rule (before.head + 1) (rule.next ∈ terminalNames))
        ⟨rule.next, before.head + 1, Function.update before.cells before.head rule.write⟩

inductive Moves (table : Table) : Configuration → Nat → List Event → Configuration → Prop
  | none {configuration} : Moves table configuration 0 [] configuration
  | next {before middle last event count events} : Move table before event middle →
      Moves table middle count events last → Moves table before (count + 1) (event :: events) last

end Textbook

open Textbook

/-- What a step tells that the textbook machine can tell too: all but the stored cells. -/
def Step.event? : Step → Option Event
  | applied _ head isTerminal rule => some (.applied rule head isTerminal)
  | aborted reason => some (.aborted reason)
  | halted state => some (.halted state)
  | reverted .. | noOp => none

theorem State.isTerminal_iff {state : State} : state.isTerminal = true ↔ state ∈ terminalNames := by
  unfold State.isTerminal Halt.ofState?
  rw [List.find?_isSome]
  simp [Halt.all, Halt.state, terminalNames, eq_comm]

theorem State.isTerminal_eq_decide (state : State) : state.isTerminal = decide (state ∈ terminalNames) := by
  rw [Bool.eq_iff_iff, State.isTerminal_iff, decide_eq_true_iff]

theorem Tape.read_ofString (input : String) : (Tape.ofString input).read = inputCells input := by
  funext position
  cases position with
  | ofNat index => simp [Tape.read, Tape.ofString, HalfTape.read, inputCells, blank]
  | negSucc index => simp [Tape.read, Tape.ofString, inputCells, blank]

theorem Tape.read_write_eq_update (tape : Tape) (target : Int) (symbol : Symbol) :
    (tape.write target symbol).read = Function.update tape.read target symbol := by
  funext position
  rw [Tape.read_write, Function.update_apply]

namespace Machine

/-- What can be seen of a machine by reading: its state, its head, and every cell. -/
def configuration (machine : Machine) : Configuration := ⟨machine.state, machine.head, machine.tape.read⟩

theorem isHalted_iff {machine : Machine} : machine.isHalted = true ↔ machine.configuration.state ∈ terminalNames :=
  State.isTerminal_iff

theorem isHalted_eq_false_iff {machine : Machine} :
    machine.isHalted = false ↔ machine.configuration.state ∉ terminalNames := by
  rw [← isHalted_iff, Bool.not_eq_true]

theorem configuration_apply (machine : Machine) (index : Nat) (rule : Rule) (offset : Int) :
    (machine.perform (.apply index rule offset)).configuration =
      ⟨rule.next, machine.head + offset, Function.update machine.tape.read machine.head rule.write⟩ := by
  simp only [configuration, perform, Tape.read_write_eq_update]

end Machine

end TapeMachine
