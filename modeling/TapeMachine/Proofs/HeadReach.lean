import TapeMachine.Proofs.NormalForm
import TapeMachine.Proofs.Textbook

namespace TapeMachine

open Textbook

theorem Textbook.inputCells_eq_blank {input : String} {position : Int}
    (outside : position < 0 ∨ input.length ≤ position) : inputCells input position = blank := by
  by_contra mark
  rw [← Tape.read_ofString] at mark
  obtain ⟨lower, upper⟩ := Tape.bounds_of_marked mark
  have origin : (Tape.ofString input).origin = 0 := rfl
  have limit : (Tape.ofString input).limit = input.length := rfl
  omega

namespace Machine

/-- How far a machine has come: it has only written from `first` on and before `last`, which is no longer
than its steps are many, and the head is there or right beside it. -/
structure Roamed (machine : Machine) (first last : Int) : Prop where
  middle : first ≤ 0 ∧ 0 ≤ last
  length : last - first ≤ machine.stepCount
  begun : machine.stepCount ≠ 0 → 0 < last
  head : first - 1 ≤ machine.head ∧ machine.head ≤ last
  parity : machine.head % 2 = machine.stepCount % 2
  unwritten : ∀ position, position < first ∨ last ≤ position →
    machine.tape.read position = inputCells machine.input position

namespace Roamed

theorem start (table : Table) (input : String) (state : State) : (start table input state).Roamed 0 0 where
  middle := ⟨le_rfl, le_rfl⟩
  length := le_rfl
  begun := fun moved => absurd rfl moved
  head := ⟨Int.sub_le_self 0 (by decide), le_rfl⟩
  parity := rfl
  unwritten := fun position _ => congrFun (Tape.read_ofString input) position

variable {machine : Machine} {first last : Int}

/-- The head writes where it is, so the stretch grows by one position if it is beside it. -/
theorem apply (roamed : machine.Roamed first last) {index : Nat} {rule : Rule} {offset : Int}
    (move : rule.move.offset? = some offset) :
    (machine.perform (.apply index rule offset)).Roamed (min first machine.head) (max last (machine.head + 1)) := by
  have steps : (machine.perform (.apply index rule offset)).stepCount = machine.stepCount + 1 := rfl
  have head : (machine.perform (.apply index rule offset)).head = machine.head + offset := rfl
  have moves := Direction.offset?_cases move
  obtain ⟨middle, length, begun, beside, parity, unwritten⟩ := roamed
  refine ⟨by omega, by omega, by omega, by omega, by omega, fun position outside => ?_⟩
  change (machine.tape.write machine.head rule.write).read position = _
  rw [Tape.read_write, if_neg (by omega)]
  exact unwritten position (by omega)

theorem advance (roamed : machine.Roamed first last) : ∃ first last, machine.advance.Roamed first last := by
  cases halted : machine.isHalted with
  | true =>
    rw [advance_of_halted halted]
    exact ⟨first, last, roamed⟩
  | false =>
    rcases advance_of_running halted with ⟨reason, next⟩ | ⟨index, rule, offset, _, move, next⟩
    · rw [next]
      exact ⟨first, last, roamed.middle, roamed.length, roamed.begun, roamed.head, roamed.parity, roamed.unwritten⟩
    · rw [next]
      exact ⟨_, _, roamed.apply move⟩

theorem head_bounds (roamed : machine.Roamed first last) :
    -machine.stepCount ≤ machine.head ∧ machine.head ≤ machine.stepCount := by
  -- the first step writes at 0, so on the left the stretch is shorter than the steps are many
  obtain ⟨middle, length, begun, beside, _, _⟩ := roamed
  omega

theorem origin_bounds (roamed : machine.Roamed first last) (canonical : machine.tape.Canonical) :
    first ≤ machine.tape.origin ∧ machine.tape.origin ≤ 0 := by
  refine ⟨canonical.le_origin roamed.middle.1 fun position below => ?_, machine.tape.origin_nonpos⟩
  have middle := roamed.middle
  rw [roamed.unwritten position (Or.inl below), inputCells_eq_blank (Or.inl (by omega))]

theorem limit_bounds (roamed : machine.Roamed first last) (canonical : machine.tape.Canonical)
    (seeded : machine.tape.seeded = machine.input.length) :
    machine.input.length ≤ machine.tape.limit ∧ machine.tape.limit ≤ max (machine.input.length : Int) last := by
  have lower := canonical.seeded_le_limit
  rw [seeded] at lower
  refine ⟨lower, canonical.limit_le (by omega) fun position above => ?_⟩
  rw [roamed.unwritten position (Or.inr (by omega)), inputCells_eq_blank (Or.inr (by omega))]

end Roamed

/-- Where the head and the stored cells of a machine are, measured by its steps and its input. -/
structure Confined (machine : Machine) : Prop where
  head : -machine.stepCount ≤ machine.head ∧ machine.head ≤ machine.stepCount
  parity : machine.head % 2 = machine.stepCount % 2
  origin : min 0 (1 - (machine.stepCount : Int)) ≤ machine.tape.origin ∧ machine.tape.origin ≤ 0
  limit : machine.input.length ≤ machine.tape.limit ∧
    machine.tape.limit ≤ max (machine.input.length : Int) machine.stepCount
  size : machine.tape.limit - machine.tape.origin ≤ machine.input.length + machine.stepCount

theorem Roamed.confined {machine : Machine} {first last : Int} (roamed : machine.Roamed first last)
    (canonical : machine.tape.Canonical) (seeded : machine.tape.seeded = machine.input.length) : machine.Confined := by
  have head := roamed.head_bounds
  have origin := roamed.origin_bounds canonical
  have limit := roamed.limit_bounds canonical seeded
  obtain ⟨middle, length, begun, _, parity, _⟩ := roamed
  exact ⟨head, parity, by omega, by omega, by omega⟩

theorem Normal.confined {machine : Machine} (normal : machine.Normal) : machine.Confined := by
  have roamed : ∃ first last, machine.Roamed first last := by
    refine normal.of_advance (motive := fun machine => ∃ first last, machine.Roamed first last) ?_ ?_
    · exact ⟨0, 0, Roamed.start machine.table machine.input machine.initialState⟩
    · rintro machine _ ⟨first, last, roamed⟩
      exact roamed.advance
  obtain ⟨first, last, here⟩ := roamed
  exact here.confined normal.consistent.tape normal.seeded

end Machine

end TapeMachine
