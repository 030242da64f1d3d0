import TapeMachine.Program.Catalog
import TapeMachine.Proofs.PlainProgram
import TapeMachine.Proofs.Sweep

namespace TapeMachine.Program

open Machine

def strokes (count : Nat) : List Symbol := List.replicate count '1'

/-- The rules of the unary addition. -/
def additionTable : Table where
  rules :=
    [⟨"scan", '1', '1', .right, "scan"⟩, ⟨"scan", '+', '1', .right, "seek"⟩, ⟨"seek", '1', '1', .right, "seek"⟩,
      ⟨"seek", '_', '_', .left, "erase"⟩, ⟨"erase", '1', '_', .left, "back"⟩, ⟨"back", '1', '1', .left, "back"⟩,
      ⟨"back", '_', '_', .right, "halt-accept"⟩]

theorem additionTable_sound : additionTable.defect? "scan" = none := rfl

theorem unaryAddition_machine : unaryAddition.machine = .ok (start additionTable "111+11" "scan") :=
  machine_of_transitions rfl (by decide) (by decide) rfl additionTable_sound

/-- A stroke for each unit of both numbers, with the sign between them. -/
def sumWord (first second : Nat) : String := String.ofList (strokes first ++ '+' :: strokes second)

section

variable (first second : Nat)

theorem toList_sumWord : (sumWord first second).toList = strokes first ++ '+' :: strokes second := String.toList_ofList

theorem stroke_of_mem {state : State} (rule : ⟨state, '1', '1', .right, state⟩ ∈ additionTable.rules) (count : Nat) :
    ∀ symbol ∈ strokes count, ⟨state, symbol, symbol, .right, state⟩ ∈ additionTable.rules := by
  intro symbol member
  rwa [List.eq_of_mem_replicate member]

/-- The sign has become a stroke, and the head has found the end of the strokes, one of which is too many. -/
theorem addition_joins :
    (start additionTable (sumWord first second) "scan").Arrives (first + second + 2) "erase" (first + second)
      (strokes (first + second)) ['1', '_'] := by
  have join : ⟨"scan", '+', '1', .right, "seek"⟩ ∈ additionTable.rules := by decide
  have turn : ⟨"seek", '_', '_', .left, "erase"⟩ ∈ additionTable.rules := by decide
  have begun := Arrives.start additionTable (sumWord first second) "scan"
  rw [toList_sumWord] at begun
  have scanned := begun.passRight additionTable_sound (stroke_of_mem (by decide) first)
  have joined := scanned.goRight additionTable_sound '1' "seek" join
  rw [List.tail_cons] at joined
  have sought := joined.passRight_all additionTable_sound (stroke_of_mem (by decide) second)
  have turned := sought.goLeft additionTable_sound '_' "erase" turn
  have together : (strokes second).reverse ++ '1' :: ((strokes first).reverse ++ []) = '1' :: strokes (first + second) := by
    simp only [strokes, List.reverse_replicate, List.append_nil, ← List.replicate_succ, List.replicate_append_replicate]
    congr 1
    omega
  rw [together] at turned
  refine turned.congr ?_ ?_ (fun _ => rfl) (fun _ => rfl)
  · simp only [strokes, List.length_replicate]
    omega
  · simp only [strokes, List.length_replicate]
    omega

/-- The last stroke is blank, which its cell keeps because it was part of the input. -/
theorem addition_returns :
    (start additionTable (sumWord first second) "scan").Arrives (2 * (first + second) + 4) "halt-accept" 0 []
      (strokes (first + second) ++ ['_']) := by
  have erase : ⟨"erase", '1', '_', .left, "back"⟩ ∈ additionTable.rules := by decide
  have stop : ⟨"back", '_', '_', .right, "halt-accept"⟩ ∈ additionTable.rules := by decide
  have same : ∀ symbol ∈ strokes (first + second), ⟨"back", symbol, symbol, .left, "back"⟩ ∈ additionTable.rules := by
    intro symbol member
    rw [List.eq_of_mem_replicate member]
    decide
  have erased := (addition_joins first second).goLeft additionTable_sound '_' "back" erase
  have returned := erased.sweepLeft_all additionTable_sound id same
  have stopped := returned.goRight additionTable_sound '_' "halt-accept" stop
  have length : (strokes (first + second)).length = first + second := List.length_replicate
  have same : ((strokes (first + second)).map id).reverse = strokes (first + second) := by
    rw [List.map_id, strokes, List.reverse_replicate]
  rw [same, length] at stopped
  refine stopped.congr (by omega) (by omega) (HalfTape.read_concat_blank []) fun index => ?_
  have shorter := HalfTape.read_concat_blank (strokes (first + second) ++ ['_']) index
  rwa [List.append_assoc] at shorter

end

/-- The built-in addition adds any two numbers of strokes. It leaves as many strokes as both have together, with a
blank behind them where the last stroke was, and the head ends on the first cell. -/
theorem unaryAddition_adds (first second : Nat) :
    ∃ program machine last, byName "unary-addition" = .ok program ∧ program.machine = .ok machine ∧
      (machine.setTape (String.ofList (List.replicate first '1' ++ '+' :: List.replicate second '1'))).HaltsAfter
        (2 * (first + second) + 4) last ∧
      last.state = "halt-accept" ∧ last.head = 0 ∧ last.tape.origin = 0 ∧
      last.tape.text = String.ofList (List.replicate (first + second) '1' ++ ['_']) := by
  have arrives := addition_returns first second
  have sameLength : (sumWord first second).toList.length = (strokes (first + second) ++ ['_']).length := by
    rw [toList_sumWord]
    simp only [strokes, List.length_append, List.length_cons, List.length_replicate, List.length_nil]
    omega
  have tape := arrives.tape_eq_ofString sameLength
  refine ⟨unaryAddition, start additionTable "111+11" "scan", _, rfl, unaryAddition_machine,
    arrives.haltsAfter (by decide), arrives.inState, arrives.atHead, ?_, ?_⟩
  · rw [tape]
    rfl
  · rw [tape, Tape.text_ofString]
    rfl

end TapeMachine.Program
