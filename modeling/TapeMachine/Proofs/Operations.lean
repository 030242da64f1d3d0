import Mathlib.Logic.Function.Iterate
import TapeMachine.Machine.Run
import TapeMachine.Program
import TapeMachine.Proofs.Advance

namespace TapeMachine

/-- What a machine can be asked to do. -/
inductive Operation where
  | step
  | back
  | runLimit (limit : Nat)
  | setTape (input : String)
  | reset

/-- The input that a machine has after some operations, if it was made for `input`. -/
def Operation.lastInput (input : String) : List Operation → String
  | [] => input
  | .setTape next :: rest => lastInput next rest
  | _ :: rest => lastInput input rest

/-- What an operation answers. -/
inductive Reply where
  | stepped (step : Step)
  | ran (result : Except StepLimitExceeded State)
  | done

namespace Machine

def operate (machine : Machine) : Operation → Machine
  | .step => machine.step.2
  | .back => machine.back.2
  | .runLimit limit => (machine.runLimit limit).2
  | .setTape input => machine.setTape input
  | .reset => machine.reset

def operateAll (machine : Machine) (operations : List Operation) : Machine := operations.foldl operate machine

def reply (machine : Machine) : Operation → Reply
  | .step => .stepped machine.step.1
  | .back => .stepped machine.back.1
  | .runLimit limit => .ran (machine.runLimit limit).1
  | .setTape _ | .reset => .done

/-- The answers to some operations, one after the other. -/
def replies (machine : Machine) : List Operation → List Reply
  | [] => []
  | operation :: rest => machine.reply operation :: replies (machine.operate operation) rest

/-- The answers to some calls of one kind of step, and the machine after the last. -/
def calls (call : Machine → Step × Machine) : Nat → Machine → List Step × Machine
  | 0, machine => ([], machine)
  | count + 1, machine =>
    let (answer, next) := call machine
    let (answers, last) := calls call count next
    (answer :: answers, last)

/-- The machines that are built from a table or a program, and what any operations make of them. -/
inductive Reachable : Machine → Prop
  | ofTable {table input initial machine} : ofTable? table input initial = some machine → Reachable machine
  | ofProgram {program machine} : Program.machine program = .ok machine → Reachable machine
  | operate {machine} (operation : Operation) : Reachable machine → Reachable (machine.operate operation)

theorem Reachable.operateAll {machine : Machine} (reachable : Reachable machine) (operations : List Operation) :
    Reachable (machine.operateAll operations) := by
  induction operations generalizing machine with
  | nil => exact reachable
  | cons operation operations ih => exact ih (reachable.operate operation)

theorem calls_snd (call : Machine → Step × Machine) (count : Nat) (machine : Machine) :
    (calls call count machine).2 = (fun machine => (call machine).2)^[count] machine := by
  induction count generalizing machine with
  | zero => rfl
  | succ count ih => exact ih (call machine).2

section

variable (call : Machine → Step × Machine)

theorem length_calls (count : Nat) (machine : Machine) : (calls call count machine).1.length = count := by
  induction count generalizing machine with
  | zero => rfl
  | succ count ih => exact congrArg (· + 1) (ih (call machine).2)

/-- The answers to some calls, and what a longer series of calls answers to the next one. -/
theorem calls_split {count place : Nat} (within : place < count) (machine : Machine) :
    ∃ later, (calls call count machine).1 =
      (calls call place machine).1 ++ (call (calls call place machine).2).1 :: later := by
  induction place generalizing count machine with
  | zero =>
    obtain ⟨rest, rfl⟩ := Nat.exists_eq_add_of_lt within
    exact ⟨(calls call (0 + rest) (call machine).2).1, rfl⟩
  | succ place ih =>
    obtain ⟨rest, rfl⟩ : ∃ rest, count = rest + 1 := ⟨count - 1, by omega⟩
    obtain ⟨later, split⟩ := ih (by omega : place < rest) (call machine).2
    exact ⟨later, congrArg ((call machine).1 :: ·) split⟩

theorem take_calls {count place : Nat} (within : place < count) (machine : Machine) :
    (calls call count machine).1.take place = (calls call place machine).1 := by
  obtain ⟨later, split⟩ := calls_split call within machine
  rw [split, List.take_left' (length_calls call place machine)]

theorem getElem?_calls {count place : Nat} (within : place < count) (machine : Machine) :
    (calls call count machine).1[place]? = some (call (calls call place machine).2).1 := by
  obtain ⟨later, split⟩ := calls_split call within machine
  have length := length_calls call place machine
  rw [split, List.getElem?_append_right (by omega), length, Nat.sub_self]
  rfl

end

theorem calls_step_snd (count : Nat) (machine : Machine) :
    (calls step count machine).2 = advance^[count] machine := calls_snd step count machine

theorem calls_step_succ_snd (count : Nat) (machine : Machine) :
    (calls step (count + 1) machine).2 = (calls step count machine).2.step.2 := by
  rw [calls_step_snd, calls_step_snd, Function.iterate_succ_apply']
  rfl

theorem iterate_advance_of_halted {machine : Machine} (halted : machine.isHalted = true) (count : Nat) :
    advance^[count] machine = machine :=
  Function.iterate_fixed (advance_of_halted halted) count

/-- A bounded run takes as many steps as it may: steps after the machine has halted change nothing. -/
theorem advanceUpTo_eq_iterate (limit : Nat) (machine : Machine) :
    advanceUpTo limit machine = advance^[limit] machine := by
  induction limit generalizing machine with
  | zero => rfl
  | succ limit ih =>
    unfold advanceUpTo
    split
    · rename_i halted
      rw [iterate_advance_of_halted halted]
    · rw [ih, Function.iterate_succ_apply]

end Machine

theorem Program.ofTable?_of_machine {program : Program} {machine : Machine}
    (built : program.machine = .ok machine) :
    ∃ table, Machine.ofTable? table program.tape program.initialState = some machine := by
  unfold Program.machine at built
  cases parsed : (Table.ofTextIn program.mode program.transitions).mapError BuildError.malformedLine with
  | error fault => simp [parsed, bind, Except.bind] at built
  | ok table =>
    refine ⟨table, ?_⟩
    simp only [parsed, bind, Except.bind] at built
    cases made : Machine.ofTable? table program.tape program.initialState with
    | none => simp [made, throw, throwThe, MonadExceptOf.throw] at built
    | some candidate =>
      simp only [made] at built
      split at built
      · split at built
        · cases built
        · cases built
          rfl
      · cases built
        rfl

end TapeMachine
