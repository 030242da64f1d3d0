import TapeMachine.Proofs.BoundedRuns
import TapeMachine.Proofs.Verdict

namespace TapeMachine

open Textbook

namespace HalfTape

theorem read_tail (cells : HalfTape) (index : Nat) : read cells.tail index = read cells (index + 1) := by
  cases cells with
  | nil => simp
  | cons cell rest => simp

/-- A blank at the end is there without being stored. -/
theorem read_concat_blank (cells : HalfTape) (index : Nat) : read (cells ++ [blank]) index = read cells index := by
  rw [read_append]
  split
  · rfl
  · rename_i beyond
    rw [read_of_length_le (Nat.le_of_not_lt beyond)]
    cases index - cells.length <;> simp

end HalfTape

namespace Tape

/-- The cells as the head sees them: to its left `behind`, the nearest first, and from its own cell on
`ahead`. All others are blank. -/
structure Around (tape : Tape) (head : Int) (behind ahead : HalfTape) : Prop where
  behind : ∀ index : Nat, tape.read (head - 1 - index) = HalfTape.read behind index
  ahead : ∀ index : Nat, tape.read (head + index) = HalfTape.read ahead index

theorem text_ofString (input : String) : (ofString input).text = input := String.ofList_toList

namespace Around

theorem halves (tape : Tape) : tape.Around 0 tape.left tape.right := by
  constructor
  · intro index
    rw [show (0 - 1 - index : Int) = .negSucc index by omega]
    rfl
  · intro index
    rw [Int.zero_add]
    rfl

variable {tape : Tape} {head : Int} {behind ahead : HalfTape} (around : tape.Around head behind ahead)
include around

theorem read_head : tape.read head = HalfTape.read ahead 0 := by
  rw [← around.ahead 0]
  simp

theorem write (symbol : Symbol) : (tape.write head symbol).Around head behind (symbol :: ahead.tail) := by
  constructor
  · intro index
    rw [read_write, if_neg (by omega), around.behind]
  · intro index
    rw [read_write]
    cases index with
    | zero => simp
    | succ index =>
      rw [if_neg (by omega), HalfTape.read_cons_succ, HalfTape.read_tail, ← around.ahead]

theorem goRight : tape.Around (head + 1) (HalfTape.read ahead 0 :: behind) ahead.tail := by
  constructor
  · intro index
    cases index with
    | zero =>
      rw [HalfTape.read_cons_zero, ← around.ahead 0]
      congr 1
      omega
    | succ index =>
      rw [HalfTape.read_cons_succ, ← around.behind]
      congr 1
      omega
  · intro index
    rw [HalfTape.read_tail, ← around.ahead]
    congr 1
    omega

theorem goLeft : tape.Around (head - 1) behind.tail (HalfTape.read behind 0 :: ahead) := by
  constructor
  · intro index
    rw [HalfTape.read_tail, ← around.behind]
    congr 1
    omega
  · intro index
    cases index with
    | zero =>
      rw [HalfTape.read_cons_zero, ← around.behind 0]
      congr 1
    | succ index =>
      rw [HalfTape.read_cons_succ, ← around.ahead]
      congr 1
      omega

omit around in
theorem passRight {word rest : HalfTape} {head : Int} {behind : HalfTape}
    (around : tape.Around head behind (word ++ rest)) :
    tape.Around (head + word.length) (word.reverse ++ behind) rest := by
  induction word generalizing head behind with
  | nil => simpa using around
  | cons symbol word ih =>
    have later := ih around.goRight
    have place : head + 1 + word.length = head + (symbol :: word).length := by simp only [List.length_cons]; omega
    rw [place] at later
    rw [List.reverse_cons, List.append_assoc]
    exact later

theorem congr {before after : HalfTape} (sameBehind : ∀ index, HalfTape.read behind index = HalfTape.read before index)
    (sameAhead : ∀ index, HalfTape.read ahead index = HalfTape.read after index) : tape.Around head before after :=
  ⟨fun index => (around.behind index).trans (sameBehind index), fun index => (around.ahead index).trans (sameAhead index)⟩

/-- What the head sees determines a tape, if it stores no more than it must. -/
theorem unique {other : Tape} (others : other.Around head behind ahead) (canonical : tape.Canonical)
    (otherCanonical : other.Canonical) (seeded : tape.seeded = other.seeded) : tape = other := by
  refine canonical.ext otherCanonical seeded fun position => ?_
  by_cases left : position < head
  · obtain ⟨index, rfl⟩ : ∃ index : Nat, position = head - 1 - index := ⟨(head - 1 - position).toNat, by omega⟩
    rw [around.behind, others.behind]
  · obtain ⟨index, rfl⟩ : ∃ index : Nat, position = head + index := ⟨(position - head).toNat, by omega⟩
    rw [around.ahead, others.ahead]

end Around

end Tape

namespace Machine

theorem stepCount_advance_le (machine : Machine) : machine.advance.stepCount ≤ machine.stepCount + 1 := by
  unfold advance
  cases machine.action with
  | apply index rule offset => exact Nat.le_refl _
  | stay => exact Nat.le_succ _
  | abort reason => exact Nat.le_succ _

theorem stepCount_iterate_le (machine : Machine) (count : Nat) :
    (advance^[count] machine).stepCount ≤ machine.stepCount + count := by
  induction count with
  | zero => exact Nat.le_refl _
  | succ count ih =>
    rw [Function.iterate_succ_apply']
    have further := stepCount_advance_le (advance^[count] machine)
    omega

theorem table_iterate (machine : Machine) (count : Nat) : (advance^[count] machine).table = machine.table := by
  have setup := congrArg Machine.table (reset_iterate machine count)
  exact setup

theorem seeded_iterate (machine : Machine) (count : Nat) :
    (advance^[count] machine).tape.seeded = machine.tape.seeded := by
  induction count with
  | zero => rfl
  | succ count ih => rw [Function.iterate_succ_apply', seeded_advance, ih]

/-- The run of the machine ends in `last`, after exactly so many steps. -/
structure HaltsAfter (machine : Machine) (count : Nat) (last : Machine) : Prop where
  run : machine.run = some last
  reached : (calls step count machine).2 = last
  halted : last.isHalted = true
  running : ∀ earlier, earlier < count → (calls step earlier machine).2.isHalted = false
  applied : last.stepCount = machine.stepCount + count

/-- So many steps, each of which applies a rule, lead the machine to `state` and its head to `head`, and
there it sees the cells `behind` and `ahead`. -/
structure Arrives (machine : Machine) (count : Nat) (state : State) (head : Int) (behind ahead : HalfTape) : Prop where
  applied : (advance^[count] machine).stepCount = machine.stepCount + count
  inState : (advance^[count] machine).state = state
  atHead : (advance^[count] machine).head = head
  around : (advance^[count] machine).tape.Around head behind ahead

namespace Arrives

theorem start (table : Table) (input : String) (state : State) :
    (start table input state).Arrives 0 state 0 [] input.toList :=
  ⟨rfl, rfl, rfl, Tape.Around.halves (Tape.ofString input)⟩

variable {machine : Machine} {count : Nat} {state : State} {head : Int} {behind ahead : HalfTape}

/-- The same place in other words: blanks may be added to the cells or left out. -/
theorem congr (arrives : machine.Arrives count state head behind ahead) {steps : Nat} {place : Int}
    {before after : HalfTape} (sameCount : count = steps) (sameHead : head = place)
    (sameBehind : ∀ index, HalfTape.read behind index = HalfTape.read before index)
    (sameAhead : ∀ index, HalfTape.read ahead index = HalfTape.read after index) :
    machine.Arrives steps state place before after := by
  subst sameCount sameHead
  exact ⟨arrives.applied, arrives.inState, arrives.atHead, arrives.around.congr sameBehind sameAhead⟩

theorem haltsAfter (arrives : machine.Arrives count state head behind ahead) (terminal : state ∈ terminalNames) :
    machine.HaltsAfter count (advance^[count] machine) := by
  have halted : (advance^[count] machine).isHalted = true := by
    rw [isHalted, arrives.inState, State.isTerminal_iff]
    exact terminal
  refine ⟨run_eq_some_of_halted halted, calls_step_snd count machine, halted, fun earlier before => ?_, arrives.applied⟩
  rw [calls_step_snd]
  by_contra already
  -- a machine that has halted earlier has applied fewer rules
  have same := iterate_advance_of_le (by simpa using already) before.le
  have bound := stepCount_iterate_le machine earlier
  have applied := arrives.applied
  rw [same] at applied
  omega

/-- The tape there is the canonical one with those cells. -/
theorem tape_eq (arrives : machine.Arrives count state head behind ahead) (consistent : machine.Consistent)
    {tape : Tape} (canonical : tape.Canonical) (seeded : machine.tape.seeded = tape.seeded)
    (around : tape.Around head behind ahead) : (advance^[count] machine).tape = tape :=
  arrives.around.unique around (consistent.iterate count).tape canonical ((seeded_iterate machine count).trans seeded)

/-- If the head ends at 0 with nothing to its left, and no cell beyond the input is in use, the tape is a fresh one. -/
theorem tape_eq_ofString {table : Table} {input : String} {initial : State} {cells : HalfTape}
    (arrives : (Machine.start table input initial).Arrives count state 0 [] cells)
    (sameLength : input.toList.length = cells.length) :
    (advance^[count] (Machine.start table input initial)).tape = Tape.ofString (String.ofList cells) := by
  have around := Tape.Around.halves (Tape.ofString (String.ofList cells))
  have seeded : input.toList.length = (String.ofList cells).toList.length := by rw [String.toList_ofList, sameLength]
  have right : (Tape.ofString (String.ofList cells)).right = cells := String.toList_ofList
  rw [right] at around
  exact arrives.tape_eq (Consistent.start table input initial) (Tape.Canonical.ofString _) seeded around

section

variable {initial : State} (sound : machine.table.defect? initial = none)
include sound

/-- In a table without defects every rule is applied where it fits. -/
theorem apply (arrives : machine.Arrives count state head behind ahead) {write : Symbol} {move : Direction}
    {next : State} {offset : Int}
    (rule : ⟨state, HalfTape.read ahead 0, write, move, next⟩ ∈ machine.table.rules) (known : move.offset? = some offset) :
    ∃ index, advance^[count + 1] machine =
      (advance^[count] machine).perform (.apply index ⟨state, HalfTape.read ahead 0, write, move, next⟩ offset) := by
  obtain ⟨unambiguous, _, _, rests, _⟩ := (machine.table.defect?_eq_none_iff initial).mp sound
  obtain ⟨applied, rfl, rfl, around⟩ := arrives
  obtain ⟨index, atIndex⟩ := List.mem_iff_getElem?.mp rule
  have running : (advance^[count] machine).isHalted = false := isHalted_eq_false_iff.mpr (rests _ rule)
  rw [← table_iterate machine count] at unambiguous atIndex
  have first := unambiguous.firstMatch atIndex ⟨rfl, around.read_head.symm⟩
  refine ⟨index, ?_⟩
  rw [Function.iterate_succ_apply', advance, (Acts.apply running first known).action_eq]

theorem goRight (arrives : machine.Arrives count state head behind ahead) (write : Symbol) (next : State)
    (rule : ⟨state, HalfTape.read ahead 0, write, .right, next⟩ ∈ machine.table.rules) :
    machine.Arrives (count + 1) next (head + 1) (write :: behind) ahead.tail := by
  obtain ⟨index, reached⟩ := arrives.apply sound rule rfl
  obtain ⟨applied, _, rfl, around⟩ := arrives
  constructor
  case applied => rw [reached, ← Nat.add_assoc, ← applied]; rfl
  case inState => rw [reached]; rfl
  case atHead => rw [reached]; rfl
  case around =>
    rw [reached]
    exact (around.write write).goRight

theorem goLeft (arrives : machine.Arrives count state head behind ahead) (write : Symbol) (next : State)
    (rule : ⟨state, HalfTape.read ahead 0, write, .left, next⟩ ∈ machine.table.rules) :
    machine.Arrives (count + 1) next (head - 1) behind.tail (HalfTape.read behind 0 :: write :: ahead.tail) := by
  obtain ⟨index, reached⟩ := arrives.apply sound rule rfl
  obtain ⟨applied, _, rfl, around⟩ := arrives
  constructor
  case applied => rw [reached, ← Nat.add_assoc, ← applied]; rfl
  case inState => rw [reached]; rfl
  case atHead => rw [reached]; rfl
  case around =>
    rw [reached]
    exact (around.write write).goLeft

/-- The head goes to the right over a word and leaves it as it is. The state follows the symbols. -/
theorem scanRight {Phase : Type} (name : Phase → State) (turn : Phase → Symbol → Phase) {word rest : HalfTape}
    (rules : ∀ phase, ∀ symbol ∈ word, ⟨name phase, symbol, symbol, .right, name (turn phase symbol)⟩ ∈ machine.table.rules)
    (phase : Phase) (arrives : machine.Arrives count (name phase) head behind (word ++ rest)) :
    machine.Arrives (count + word.length) (name (word.foldl turn phase)) (head + word.length) (word.reverse ++ behind)
      rest := by
  induction word generalizing count head behind phase with
  | nil => simpa using arrives
  | cons symbol word ih =>
    have now := rules phase symbol List.mem_cons_self
    have later := ih (fun phase other among => rules phase other (List.mem_cons_of_mem symbol among)) (turn phase symbol)
      (arrives.goRight sound symbol _ now)
    have steps : count + 1 + word.length = count + (symbol :: word).length := by simp only [List.length_cons]; omega
    have place : head + 1 + word.length = head + (symbol :: word).length := by simp only [List.length_cons]; omega
    rw [steps, place] at later
    rw [List.reverse_cons, List.append_assoc]
    exact later

theorem passRight {word rest : HalfTape}
    (rules : ∀ symbol ∈ word, ⟨state, symbol, symbol, .right, state⟩ ∈ machine.table.rules)
    (arrives : machine.Arrives count state head behind (word ++ rest)) :
    machine.Arrives (count + word.length) state (head + word.length) (word.reverse ++ behind) rest :=
  scanRight sound (fun _ : Unit => state) (fun phase _ => phase) (fun _ => rules) () arrives

/-- Behind the word there is nothing but blanks. -/
theorem passRight_all {word : HalfTape}
    (rules : ∀ symbol ∈ word, ⟨state, symbol, symbol, .right, state⟩ ∈ machine.table.rules)
    (arrives : machine.Arrives count state head behind word) :
    machine.Arrives (count + word.length) state (head + word.length) (word.reverse ++ behind) [] := by
  rw [← List.append_nil word] at arrives
  exact arrives.passRight sound rules

/-- The head goes to the left over a word, from its first symbol on, and changes each symbol in the same state. -/
theorem sweepLeft (change : Symbol → Symbol) {word rest : HalfTape}
    (rules : ∀ symbol ∈ word, ⟨state, symbol, change symbol, .left, state⟩ ∈ machine.table.rules)
    (arrives : machine.Arrives count state head (word ++ rest).tail (HalfTape.read (word ++ rest) 0 :: ahead)) :
    machine.Arrives (count + word.length) state (head - word.length) rest.tail
      (HalfTape.read rest 0 :: ((word.map change).reverse ++ ahead)) := by
  induction word generalizing count head ahead with
  | nil => simpa using arrives
  | cons symbol word ih =>
    have now := rules symbol List.mem_cons_self
    have later := ih (fun other among => rules other (List.mem_cons_of_mem symbol among)) (arrives.goLeft sound _ state now)
    have steps : count + 1 + word.length = count + (symbol :: word).length := by simp only [List.length_cons]; omega
    have place : head - 1 - word.length = head - (symbol :: word).length := by simp only [List.length_cons]; omega
    rw [steps, place] at later
    rw [List.map_cons, List.reverse_cons, List.append_assoc]
    exact later

theorem sweepLeft_all (change : Symbol → Symbol) {word : HalfTape}
    (rules : ∀ symbol ∈ word, ⟨state, symbol, change symbol, .left, state⟩ ∈ machine.table.rules)
    (arrives : machine.Arrives count state head word.tail (HalfTape.read word 0 :: ahead)) :
    machine.Arrives (count + word.length) state (head - word.length) []
      (blank :: ((word.map change).reverse ++ ahead)) := by
  rw [← List.append_nil word] at arrives
  exact arrives.sweepLeft sound change rules

end

end Arrives

end Machine

end TapeMachine
