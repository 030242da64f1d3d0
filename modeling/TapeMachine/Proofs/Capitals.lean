import TapeMachine.Proofs.PrintableTable
import TapeMachine.Proofs.StrictMode
import TapeMachine.Proofs.Textbook

namespace TapeMachine

open Text Textbook

namespace Table

/-- No part of a rule has a character with a smaller form. -/
def Lowered (table : Table) : Prop := ∀ rule ∈ table.rules, ∀ part ∈ rule.parts, ∀ c ∈ part, IsSmall c

theorem lowered_ofText (text : String) : (ofText text).Lowered := by
  intro rule member part among
  obtain ⟨line, amongLines, holds⟩ := exists_line_of_mem_ofText member
  have expressible := Rule.expressible_of_ofLine? holds (lineFeed_not_mem_lines amongLines)
  exact lower_eq_self_iff.mp (expressible.small part among)

namespace Lowered

variable {table : Table} (lowered : table.Lowered) {rule : Rule} (member : rule ∈ table.rules)
include lowered member

theorem start : ∀ c ∈ rule.start.toList, IsSmall c := lowered rule member _ (by simp [Rule.parts])

theorem read : IsSmall rule.read := lowered rule member [rule.read] (by simp [Rule.parts]) _ (List.mem_singleton.mpr rfl)

theorem write : IsSmall rule.write :=
  lowered rule member [rule.write] (by simp [Rule.parts]) _ (List.mem_singleton.mpr rfl)

theorem next : ∀ c ∈ rule.next.toList, IsSmall c := lowered rule member _ (by simp [Rule.parts])

end Lowered

end Table

theorem Halt.isSmall_state (halt : Halt) : ∀ c ∈ halt.state.toList, IsSmall c := by
  refine lower_eq_self_iff.mp ?_
  cases halt <;> decide

namespace Machine

/-- Only the state that a machine starts in may have other letters than small ones, and where a cell has
been changed, the letter there is a small one, as it was before. -/
structure KeepsCapitals (machine : Machine) : Prop where
  state : machine.state = machine.initialState ∨ ∀ c ∈ machine.state.toList, IsSmall c
  cells : ∀ position, machine.tape.read position = inputCells machine.input position ∨
    IsSmall (machine.tape.read position) ∧ IsSmall (inputCells machine.input position)

namespace KeepsCapitals

theorem start (table : Table) (input : String) (state : State) : (start table input state).KeepsCapitals :=
  ⟨Or.inl rfl, fun position => Or.inl (congrFun (Tape.read_ofString input) position)⟩

variable {machine : Machine} (keeps : machine.KeepsCapitals)
include keeps

/-- A small letter under the head was a small letter in the input. -/
theorem isSmall_input {position : Int} (small : IsSmall (machine.tape.read position)) :
    IsSmall (inputCells machine.input position) := by
  rcases keeps.cells position with same | ⟨_, small⟩
  · rwa [← same]
  · exact small

theorem apply (lowered : machine.table.Lowered) {index : Nat} {rule : Rule} {offset : Int}
    (first : machine.table.FirstMatch machine.state machine.symbol index rule) :
    (machine.perform (.apply index rule offset)).KeepsCapitals := by
  have member : rule ∈ machine.table.rules := List.mem_of_getElem? first.atIndex
  refine ⟨Or.inr (lowered.next member), fun position => ?_⟩
  simp only [perform, Tape.read_write]
  by_cases here : position = machine.head
  · have read : IsSmall machine.symbol := first.fits.2 ▸ lowered.read member
    rw [if_pos here, here]
    exact Or.inr ⟨lowered.write member, keeps.isSmall_input read⟩
  · rw [if_neg here]
    exact keeps.cells position

theorem advance (lowered : machine.table.Lowered) : machine.advance.KeepsCapitals := by
  cases halted : machine.isHalted with
  | true => rwa [advance_of_halted halted]
  | false =>
    rcases advance_of_running halted with ⟨reason, next⟩ | ⟨index, rule, offset, first, _, next⟩
    · rw [next]
      exact ⟨Or.inr Halt.abort.isSmall_state, keeps.cells⟩
    · rw [next]
      exact keeps.apply lowered first

end KeepsCapitals

theorem Normal.keepsCapitals {machine : Machine} (normal : machine.Normal) (lowered : machine.table.Lowered) :
    machine.KeepsCapitals := by
  refine normal.of_advance (motive := fun machine => machine.table.Lowered → machine.KeepsCapitals) ?_ ?_ lowered
  · exact fun _ => KeepsCapitals.start machine.table machine.input machine.initialState
  · intro machine _ keeps lowered
    rw [table_advance] at lowered
    exact (keeps lowered).advance lowered

/-- No rule is for a letter with a smaller form, or for a state with such a letter. -/
theorem step_of_capital {machine : Machine} (lowered : machine.table.Lowered) (running : machine.isHalted = false)
    (capital : ¬ IsSmall machine.symbol ∨ lower machine.state.toList ≠ machine.state.toList) :
    machine.step.1 = .aborted (.undefinedTransition machine.state machine.symbol) := by
  have unfit : ¬ ∃ rule ∈ machine.table.rules, rule.Fits machine.state machine.symbol := by
    rintro ⟨rule, member, start, read⟩
    rcases capital with symbol | state
    · exact symbol (read ▸ lowered.read member)
    · exact state (lower_eq_self_iff.mpr (start ▸ lowered.start member))
  rw [step_eq_of_acts (.undefined running unfit)]
  rfl

/-- Rules are read in small letters, inputs and initial states as they are. So whatever is done with the machine
of a program, letters that have a smaller form only stand where they stood in the input, and in the state
that the machine starts in. Where it meets one, it has no rule. -/
theorem capitals_never_consumed {program : Program} {machine : Machine} (built : program.machine = .ok machine)
    (operations : List Operation) :
    let used := machine.operateAll operations
    let input := inputCells (Operation.lastInput program.tape operations)
    (used.state ≠ used.initialState → ∀ c ∈ used.state.toList, IsSmall c) ∧
    (∀ position, used.tape.read position ≠ input position → IsSmall (used.tape.read position)) ∧
    (∀ position, ¬ IsSmall (input position) → used.tape.read position = input position) ∧
    (used.isHalted = false → ¬ IsSmall used.symbol ∨ lower used.state.toList ≠ used.state.toList →
      used.step.1 = .aborted (.undefinedTransition used.state used.symbol)) := by
  intro used input
  obtain ⟨state, _, rfl⟩ := ofTable?_eq_some_iff.mp (Program.ofTable?_ofText_of_machine built)
  have fresh : Normal (Machine.start (Table.ofText program.transitions) program.tape state) := Normal.start _ _ _
  have normal : used.Normal := fresh.operateAll operations
  have isTable : used.table = Table.ofText program.transitions := table_operateAll _ operations
  have isInput : used.input = Operation.lastInput program.tape operations :=
    congrArg Machine.input (reset_operateAll _ operations)
  have lowered : used.table.Lowered := isTable ▸ Table.lowered_ofText program.transitions
  obtain ⟨states, cells⟩ := normal.keepsCapitals lowered
  rw [isInput] at cells
  refine ⟨states.resolve_left, ?_, ?_, step_of_capital lowered⟩
  · intro position changed
    exact ((cells position).resolve_left changed).1
  · intro position capital
    exact (cells position).resolve_right fun small => capital small.2

/-- The rule for the capital is a rule for the small letter, so the machine aborts on the capital. -/
theorem capitals_never_consumed_met :
    let program : Program := ⟨"", "aÅ", "Q A b R P\nP Å c R Q", none, .normal⟩
    let machine := start ⟨[⟨"q", 'a', 'b', .right, "p"⟩, ⟨"p", 'å', 'c', .right, "q"⟩]⟩ "aÅ" "q"
    program.machine = .ok machine ∧ (machine.operateAll [.step]).state = "p" ∧
      (machine.operateAll [.step]).step.1 = .aborted (.undefinedTransition "p" 'Å') := by
  intro program machine
  have made : ofTable? (Table.ofText program.transitions) program.tape program.initialState = some machine := by
    decide
  have built : program.machine = .ok machine := by
    have lenient := program.machine_normal
    rwa [made] at lenient
  have running : (machine.operateAll [.step]).isHalted = false := by decide
  have symbol : (machine.operateAll [.step]).symbol = 'Å' := by decide
  have state : (machine.operateAll [.step]).state = "p" := by decide
  have capital : ¬ IsSmall 'Å' := by
    unfold IsSmall
    decide
  obtain ⟨_, _, _, aborts⟩ := capitals_never_consumed built [.step]
  rw [symbol, state] at aborts
  exact ⟨built, state, aborts running (Or.inl capital)⟩

end Machine

end TapeMachine
