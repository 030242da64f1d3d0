import Mathlib.Data.List.Forall2
import TapeMachine.Proofs.Inverse
import TapeMachine.Proofs.Textbook

namespace TapeMachine

open Textbook

/-- A rule that a step can apply, with the position that enters the history. -/
structure Table.Applicable (table : Table) (index : Nat) (rule : Rule) : Prop where
  atIndex : table.get? index = some rule
  found : table.find? rule.start rule.read = some (index, rule)
  running : rule.start ∉ terminalNames
  directed : rule.move = .left ∨ rule.move = .right

/-- Rules one after the other: each leaves the state that the one before it has entered. -/
inductive Rule.Chain : State → List Rule → State → Prop
  | nil {state} : Chain state [] state
  | cons {rule rules last} : Chain rule.next rules last → Chain rule.start (rule :: rules) last

theorem Rule.Chain.concat {first : State} {rules : List Rule} {rule : Rule} (chain : Chain first rules rule.start) :
    Chain first (rules ++ [rule]) rule.next := by
  generalize left : rule.start = state at chain
  induction chain with
  | nil =>
    rw [← left]
    exact .cons .nil
  | cons _ ih => exact .cons (ih left)

theorem Direction.offset?_eq_some {move : Direction} {offset : Int} (known : move.offset? = some offset) :
    move = .left ∨ move = .right := by
  cases move with
  | left => exact Or.inl rfl
  | right => exact Or.inr rfl
  | unknown token => cases known

theorem Direction.exists_reverse {move : Direction} (directed : move = .left ∨ move = .right) :
    ∃ reverse offset, move.reverse? = some reverse ∧ reverse.offset? = some offset := by
  rcases directed with rfl | rfl
  · exact ⟨.right, 1, rfl, rfl⟩
  · exact ⟨.left, -1, rfl, rfl⟩

theorem Table.FirstMatch.applicable {table : Table} {state : State} {symbol : Symbol} {index : Nat} {rule : Rule}
    (first : table.FirstMatch state symbol index rule) (running : state ∉ terminalNames)
    {offset : Int} (move : rule.move.offset? = some offset) : table.Applicable index rule := by
  obtain ⟨rfl, rfl⟩ := first.fits
  exact ⟨first.atIndex, find?_eq_some_iff.mpr first, running, Direction.offset?_eq_some move⟩

namespace Machine

/-- The rules that the history names lead from the initial state to the present one, or to the one that an
abort has left, and the head is where they have moved it. -/
structure Derivation (machine : Machine) (rules : List Rule) : Prop where
  named : List.Forall₂ machine.table.Applicable machine.history rules
  chain : Rule.Chain machine.initialState rules (machine.abortedFrom.getD machine.state)
  head : ∃ offsets : List Int, rules.map (·.move.offset?) = offsets.map some ∧ machine.head = offsets.sum
  aborted : ∀ state, machine.abortedFrom = some state → machine.state = "halt-abort" ∧ state ∉ terminalNames

namespace Derivation

theorem start (table : Table) (input : String) (state : State) : (start table input state).Derivation [] :=
  ⟨.nil, .nil, ⟨[], rfl, rfl⟩, nofun⟩

variable {machine : Machine} {rules : List Rule}

theorem abort (derivation : machine.Derivation rules) (running : machine.state ∉ terminalNames)
    (pending : machine.abortedFrom = none) (reason : Abort) :
    (machine.perform (.abort reason)).Derivation rules := by
  refine ⟨derivation.named, ?_, derivation.head, ?_⟩
  · -- The chain still ends in the state that the abort has left.
    have chain := derivation.chain
    rw [pending] at chain
    exact chain
  · intro state isLeft
    cases isLeft
    exact ⟨rfl, running⟩

theorem apply (derivation : machine.Derivation rules) (running : machine.state ∉ terminalNames)
    (pending : machine.abortedFrom = none) {index : Nat} {rule : Rule} {offset : Int}
    (first : machine.table.FirstMatch machine.state machine.symbol index rule)
    (move : rule.move.offset? = some offset) :
    (machine.perform (.apply index rule offset)).Derivation (rules ++ [rule]) := by
  obtain ⟨offsets, moves, head⟩ := derivation.head
  have history : (machine.perform (.apply index rule offset)).history = machine.history ++ [index] := List.reverse_cons
  have noAbort : (machine.perform (.apply index rule offset)).abortedFrom = none := pending
  refine ⟨?_, ?_, ⟨offsets ++ [offset], ?_, ?_⟩, ?_⟩
  · rw [history]
    exact List.rel_append derivation.named (.cons (first.applicable running move) .nil)
  · have chain := derivation.chain
    rw [pending, Option.getD_none, ← first.fits.1] at chain
    rw [noAbort]
    exact chain.concat
  · rw [List.map_append, List.map_append, moves, List.map_singleton, List.map_singleton, move]
  · rw [List.sum_append, List.sum_singleton, ← head]
    rfl
  · rw [noAbort]
    exact nofun

theorem advance (derivation : machine.Derivation rules) (consistent : machine.Consistent) :
    ∃ rules, machine.advance.Derivation rules := by
  cases halted : machine.isHalted with
  | true =>
    rw [advance_of_halted halted]
    exact ⟨rules, derivation⟩
  | false =>
    have pending := consistent.abortedFrom_eq_none halted
    have running : machine.state ∉ terminalNames := isHalted_eq_false_iff.mp halted
    rcases advance_of_running halted with ⟨reason, next⟩ | ⟨index, rule, offset, first, move, next⟩
    · rw [next]
      exact ⟨rules, derivation.abort running pending reason⟩
    · rw [next]
      exact ⟨rules ++ [rule], derivation.apply running pending first move⟩

theorem applicable (derivation : machine.Derivation rules) :
    ∀ index ∈ machine.history, ∃ rule, machine.table.Applicable index rule := by
  have named := derivation.named.imp fun index rule applicable => And.intro (Exists.intro rule applicable) trivial
  exact ((List.forall₂_and_left _ _).mp named).1

end Derivation

theorem Reachable.derivation {machine : Machine} (reachable : Reachable machine) :
    ∃ rules, machine.Derivation rules := by
  refine reachable.of_advance (motive := fun machine => ∃ rules, machine.Derivation rules) ?_ ?_
  · exact fun table input state => ⟨[], Derivation.start table input state⟩
  · rintro machine normal ⟨rules, derivation⟩
    exact derivation.advance normal.consistent

/-- The history of a machine in use is a derivation. So what is undone next, if it is not an abort, is a
rule that the table has, and the head knows its way back. -/
theorem history_derivation {machine : Machine} (reachable : Reachable machine) :
    (∃ rules, machine.Derivation rules) ∧
    ∀ index trail, machine.abortedFrom = none → machine.trail = index :: trail →
      ∃ rule reverse offset, machine.table.get? index = some rule ∧ rule.move.reverse? = some reverse ∧
        reverse.offset? = some offset ∧
        let before := { machine with
          state := rule.start, trail, head := machine.head + offset,
          tape := machine.tape.write (machine.head + offset) rule.read }
        machine.back = (before.reverted, before) := by
  obtain ⟨rules, derivation⟩ := reachable.derivation
  refine ⟨⟨rules, derivation⟩, ?_⟩
  intro index trail pending onTop
  have member : index ∈ machine.history := by
    rw [history, onTop]
    exact List.mem_reverse.mpr (List.mem_cons_self ..)
  obtain ⟨rule, applicable⟩ := derivation.applicable index member
  obtain ⟨reverse, offset, isReverse, move⟩ := Direction.exists_reverse applicable.directed
  refine ⟨rule, reverse, offset, applicable.atIndex, isReverse, move, ?_⟩
  simp only [back, pending, onTop, applicable.atIndex, unapply, isReverse, Option.bind_some, move, Option.getD_some]

/-- Two rules and an abort that has been undone: next to undo is the second rule, at position 1. -/
theorem history_derivation_undone :
    let fresh := start ⟨[⟨"q", '0', '1', .right, "p"⟩, ⟨"p", '0', '_', .left, "q"⟩]⟩ "00" "q"
    let machine := (fresh.operate (.runLimit 3)).operate .back
    Reachable machine ∧ (∃ rules, machine.Derivation rules) ∧
      (machine.abortedFrom = none ∧ machine.trail = [1, 0]) ∧
      ∃ rule reverse offset, machine.table.get? 1 = some rule ∧ rule.move.reverse? = some reverse ∧
        reverse.offset? = some offset ∧
        let before := { machine with
          state := rule.start, trail := [0], head := machine.head + offset,
          tape := machine.tape.write (machine.head + offset) rule.read }
        machine.back = (before.reverted, before) := by
  intro fresh machine
  have built : ofTable? fresh.table "00" none = some fresh := rfl
  have used : Reachable machine := .operate .back (.operate (.runLimit 3) (.ofTable built))
  have pending : machine.abortedFrom = none := by decide
  have onTop : machine.trail = [1, 0] := by decide
  obtain ⟨derived, undone⟩ := history_derivation used
  exact ⟨used, derived, ⟨pending, onTop⟩, undone 1 [0] pending onTop⟩

end Machine

end TapeMachine
