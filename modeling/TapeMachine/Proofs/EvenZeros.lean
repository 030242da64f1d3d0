import Mathlib.Algebra.Group.Nat.Even
import TapeMachine.Program.Catalog
import TapeMachine.Proofs.PlainProgram
import TapeMachine.Proofs.Sweep

namespace TapeMachine.Program

open Machine

/-- The rules of the program for an even number of zeros. -/
def parityTable : Table where
  rules :=
    [⟨"even", '0', '0', .right, "odd"⟩, ⟨"even", '1', '1', .right, "even"⟩, ⟨"even", '_', '_', .right, "halt-accept"⟩,
      ⟨"odd", '0', '0', .right, "even"⟩, ⟨"odd", '1', '1', .right, "odd"⟩, ⟨"odd", '_', '_', .right, "halt-reject"⟩]

theorem parityTable_sound : parityTable.defect? "even" = none := rfl

theorem evenZeros_machine : evenZeros.machine = .ok (start parityTable "1001" "even") :=
  machine_of_transitions rfl (by decide) (by decide) rfl parityTable_sound

/-- The state behind so many zeros. -/
def parityState (zeros : Nat) : State := if Even zeros then "even" else "odd"

def verdictState (zeros : Nat) : State := if Even zeros then "halt-accept" else "halt-reject"

def countZero (zeros : Nat) (symbol : Symbol) : Nat := if symbol = '0' then zeros + 1 else zeros

theorem foldl_countZero (word : List Symbol) (zeros : Nat) : word.foldl countZero zeros = zeros + word.count '0' := by
  induction word generalizing zeros with
  | nil => rfl
  | cons symbol word ih =>
    rw [List.foldl_cons, ih, countZero, List.count_cons]
    by_cases zero : symbol = '0'
    · rw [if_pos zero, if_pos (beq_iff_eq.mpr zero)]
      omega
    · rw [if_neg zero, if_neg (by simpa using zero)]
      omega

theorem parityState_succ (zeros : Nat) : parityState (zeros + 1) = if Even zeros then "odd" else "even" := by
  simp only [parityState, Nat.even_add_one, ite_not]

theorem parity_mem (zeros : Nat) {symbol : Symbol} (binary : symbol = '0' ∨ symbol = '1') :
    ⟨parityState zeros, symbol, symbol, .right, parityState (countZero zeros symbol)⟩ ∈ parityTable.rules := by
  rcases binary with rfl | rfl
  · rw [countZero, if_pos rfl, parityState_succ, parityState]
    split <;> decide
  · rw [countZero, if_neg (by decide), parityState]
    split <;> decide

theorem verdict_mem (zeros : Nat) : ⟨parityState zeros, '_', '_', .right, verdictState zeros⟩ ∈ parityTable.rules := by
  unfold parityState verdictState
  split <;> decide

theorem verdictState_mem (zeros : Nat) : verdictState zeros ∈ Textbook.terminalNames := by
  unfold verdictState
  split <;> decide

/-- The built-in test for an even number of zeros decides it for every word of zeros and ones, in one step for each
symbol and one more. The head ends behind the first blank, and the tape is as it was. -/
theorem evenZeros_decides {word : String} (binary : ∀ c ∈ word.toList, c = '0' ∨ c = '1') :
    ∃ program machine last, byName "even-zeros" = .ok program ∧ program.machine = .ok machine ∧
      (machine.setTape word).HaltsAfter (word.length + 1) last ∧
      last.state = (if Even (word.toList.count '0') then "halt-accept" else "halt-reject") ∧
      last.head = word.length + 1 ∧ last.tape = Tape.ofString word := by
  have begun := Arrives.start parityTable word "even"
  have cells := Tape.Around.halves (Tape.ofString word)
  have right : (Tape.ofString word).right = word.toList ++ [] := (List.append_nil word.toList).symm
  rw [right] at cells
  rw [← List.append_nil word.toList] at begun
  have read := begun.scanRight parityTable_sound parityState countZero
    (fun zeros symbol member => parity_mem zeros (binary symbol member)) 0
  rw [foldl_countZero, Nat.zero_add, Nat.zero_add] at read
  have judged := read.goRight parityTable_sound '_' _ (verdict_mem _)
  -- the first blank is written where it already stood
  have around := cells.passRight.goRight
  have same := judged.tape_eq (Consistent.start parityTable word "even") (Tape.Canonical.ofString word) rfl around
  rw [Int.zero_add, String.length_toList] at judged
  rw [String.length_toList] at same
  exact ⟨evenZeros, _, _, rfl, evenZeros_machine, judged.haltsAfter (verdictState_mem _), judged.inState, judged.atHead,
    same⟩

theorem evenZeros_decides_odd :
    (∀ c ∈ "10".toList, c = '0' ∨ c = '1') ∧
      ∃ program machine last, byName "even-zeros" = .ok program ∧ program.machine = .ok machine ∧
        (machine.setTape "10").HaltsAfter 3 last ∧ last.state = "halt-reject" ∧ last.head = 3 ∧
        last.tape = Tape.ofString "10" := by
  have binary : ∀ c ∈ "10".toList, c = '0' ∨ c = '1' := by simp
  exact ⟨binary, evenZeros_decides binary⟩

end TapeMachine.Program
