import Mathlib.Data.List.Induction
import TapeMachine.Proofs.HalfTapeTrim
import TapeMachine.Proofs.Textbook

namespace TapeMachine

/-- The stored cells of a tape side by side, and the position of the first of them. -/
structure CellRow where
  cells : List Symbol
  origin : Int
  seeded : Nat
deriving DecidableEq

namespace CellRow

def ofString (input : String) : CellRow := ⟨input.toList, 0, input.toList.length⟩

def limit (row : CellRow) : Int := row.origin + row.cells.length

/-- Which of the cells is at a position, if one is. -/
def index? (row : CellRow) (position : Int) : Option Nat :=
  if row.origin ≤ position ∧ position < row.limit then some (position - row.origin).toNat else none

/-- The symbol at a position. There is no answer if the index is not that of a cell. -/
def read? (row : CellRow) (position : Int) : Option Symbol :=
  match row.index? position with
  | some index => row.cells[index]?
  | none => some blank

/-- Another symbol for the cell at an index, if it is the index of a cell. -/
def set? (row : CellRow) (index : Nat) (symbol : Symbol) : Option CellRow :=
  if index < row.cells.length then some { row with cells := row.cells.set index symbol } else none

/-- Takes blanks off the front as long as it is left of position 0. -/
def trimFront (seeded : Nat) : Int → List Symbol → CellRow
  | origin, [] => ⟨[], origin, seeded⟩
  | origin, cell :: rest =>
    if origin < 0 ∧ cell = blank then trimFront seeded (origin + 1) rest else ⟨cell :: rest, origin, seeded⟩

/-- Takes blanks off the end, here the front, as long as it is right of the seeded cells. -/
def trimBack (seeded : Nat) (origin : Int) : List Symbol → List Symbol
  | [] => []
  | cell :: before =>
    if seeded < origin + (before.length + 1) ∧ cell = blank then trimBack seeded origin before else cell :: before

def trim (row : CellRow) : CellRow :=
  let row := trimFront row.seeded row.origin row.cells
  { row with cells := (trimBack row.seeded row.origin row.cells.reverse).reverse }

/-- Writes a symbol at a position. The row grows with blanks towards a position that it does not hold, and
gives blanks back. There is no answer if an index is not that of a cell. -/
def write? (row : CellRow) (position : Int) (symbol : Symbol) : Option CellRow :=
  match row.index? position with
  | some index => (row.set? index symbol).map fun row => if symbol = blank then row.trim else row
  | none =>
    if symbol = blank then some row
    else if position < row.origin then
      let fill := List.replicate (row.origin - position).toNat blank
      set? { row with cells := fill ++ row.cells, origin := position } 0 symbol
    else
      let fill := List.replicate (position - row.limit).toNat blank
      some { row with cells := row.cells ++ (fill ++ [symbol]) }

/-- The row after some writes, the first of them first. -/
def writes? (row : CellRow) (changes : List (Int × Symbol)) : Option CellRow :=
  changes.foldlM (fun row change => row.write? change.1 change.2) row

theorem index?_eq_some {row : CellRow} {position : Int} {index : Nat} (here : position = row.origin + index)
    (stored : index < row.cells.length) : row.index? position = some index := by
  have upper : position < row.limit := by
    rw [limit]
    omega
  rw [index?, if_pos ⟨by omega, upper⟩]
  congr 1
  omega

theorem index?_eq_none {row : CellRow} {position : Int} (outside : position < row.origin ∨ row.limit ≤ position) :
    row.index? position = none :=
  if_neg (by omega)

theorem trimFront_eq (seeded : Nat) (left right : List Symbol) :
    trimFront seeded (-left.length) (left.reverse ++ right) =
      ⟨(HalfTape.trim 0 left).reverse ++ right, -(HalfTape.trim 0 left).length, seeded⟩ := by
  induction left using List.reverseRecOn with
  | nil => cases right <;> simp [trimFront, HalfTape.trim]
  | append_singleton left cell ih =>
    rw [List.reverse_append, List.reverse_singleton, List.singleton_append, List.cons_append, trimFront]
    have length : (left ++ [cell]).length = left.length + 1 := by simp
    by_cases isBlank : cell = blank
    · have next : -((left ++ [cell]).length : Int) + 1 = -left.length := by omega
      rw [if_pos ⟨by omega, isBlank⟩, next, ih, isBlank, HalfTape.trim_concat_blank (Nat.zero_le _)]
    · have canonical := HalfTape.Canonical.concat isBlank (Nat.zero_le (left.length + 1))
      rw [if_neg (by simp [isBlank]), canonical.trim_eq]
      simp

theorem trimBack_eq {seeded : Nat} {left right : List Symbol} (enough : seeded ≤ right.length) :
    trimBack seeded (-left.length) (right.reverse ++ left) = (HalfTape.trim seeded right).reverse ++ left := by
  induction right using List.reverseRecOn with
  | nil =>
    cases left with
    | nil => rfl
    | cons cell before =>
      rw [List.reverse_nil, List.nil_append, trimBack, if_neg (by rw [List.length_cons]; omega)]
      rfl
  | append_singleton right cell ih =>
    rw [List.reverse_append, List.reverse_singleton, List.singleton_append, List.cons_append, trimBack]
    rw [List.length_append, List.length_singleton] at enough
    have length : (right.reverse ++ left).length = right.length + left.length := by simp
    by_cases dropped : seeded ≤ right.length ∧ cell = blank
    · rw [if_pos ⟨by omega, dropped.2⟩, ih dropped.1, dropped.2, HalfTape.trim_concat_blank dropped.1]
    · -- The last cell stays: it is marked, or there are only the seeded cells.
      have canonical : HalfTape.Canonical seeded (right ++ [cell]) := by
        by_cases isBlank : cell = blank
        · have all : seeded = (right ++ [cell]).length := by
            rw [List.length_append, List.length_singleton]
            by_contra less
            exact dropped ⟨by omega, isBlank⟩
          rw [all]
          exact HalfTape.Canonical.self _
        · exact HalfTape.Canonical.concat isBlank enough
      rw [if_neg (fun ⟨more, isBlank⟩ => dropped ⟨by omega, isBlank⟩), canonical.trim_eq]
      simp

end CellRow

namespace Tape

open Textbook

def row (tape : Tape) : CellRow := ⟨tape.toList, tape.origin, tape.seeded⟩

variable {tape : Tape}

theorem length_cells_row (tape : Tape) : tape.row.cells.length = tape.left.length + tape.right.length := by
  simp [row, toList]

theorem limit_row (tape : Tape) : tape.row.limit = tape.limit := by
  rw [CellRow.limit, length_cells_row]
  simp only [row, origin, limit]
  omega

theorem index?_row_ofNat {index : Nat} (stored : index < tape.right.length) :
    tape.row.index? (.ofNat index) = some (tape.left.length + index) := by
  refine CellRow.index?_eq_some ?_ (by rw [length_cells_row]; omega)
  simp only [row, origin, Int.ofNat_eq_natCast]
  omega

theorem index?_row_negSucc {index : Nat} (stored : index < tape.left.length) :
    tape.row.index? (.negSucc index) = some (tape.left.length - 1 - index) := by
  refine CellRow.index?_eq_some ?_ (by rw [length_cells_row]; omega)
  simp only [row, origin]
  omega

theorem index?_row_ofNat_beyond {index : Nat} (beyond : tape.right.length ≤ index) :
    tape.row.index? (.ofNat index) = none := by
  refine CellRow.index?_eq_none (Or.inr ?_)
  rw [limit_row]
  exact Int.ofNat_le.mpr beyond

theorem index?_row_negSucc_beyond {index : Nat} (beyond : tape.left.length ≤ index) :
    tape.row.index? (.negSucc index) = none := by
  refine CellRow.index?_eq_none (Or.inl ?_)
  simp only [row, origin]
  omega

theorem read?_row (tape : Tape) (position : Int) : tape.row.read? position = some (tape.read position) := by
  cases position with
  | ofNat index =>
    by_cases stored : index < tape.right.length
    · rw [CellRow.read?, index?_row_ofNat stored]
      simp only [row, toList, read]
      rw [List.getElem?_append_right (by simp), List.length_reverse, Nat.add_sub_cancel_left,
        List.getElem?_eq_getElem stored, HalfTape.getElem_eq_read stored]
    · have beyond := Nat.le_of_not_lt stored
      rw [CellRow.read?, index?_row_ofNat_beyond beyond, read, HalfTape.read_of_length_le beyond]
  | negSucc index =>
    by_cases stored : index < tape.left.length
    · rw [CellRow.read?, index?_row_negSucc stored]
      simp only [row, toList, read]
      have same : tape.left.length - 1 - (tape.left.length - 1 - index) = index := by omega
      rw [List.getElem?_append_left (by rw [List.length_reverse]; omega), List.getElem?_reverse (by omega), same,
        List.getElem?_eq_getElem stored, HalfTape.getElem_eq_read stored]
    · have beyond := Nat.le_of_not_lt stored
      rw [CellRow.read?, index?_row_negSucc_beyond beyond, read, HalfTape.read_of_length_le beyond]

theorem set?_row_right {index : Nat} (stored : index < tape.right.length) (symbol : Symbol) :
    tape.row.set? (tape.left.length + index) symbol = some { tape with right := tape.right.set index symbol }.row := by
  rw [CellRow.set?, if_pos (by rw [length_cells_row]; omega)]
  simp only [row, toList, origin]
  rw [List.set_append_right _ _ (by simp), List.length_reverse, Nat.add_sub_cancel_left]

theorem set?_row_left {index : Nat} (stored : index < tape.left.length) (symbol : Symbol) :
    tape.row.set? (tape.left.length - 1 - index) symbol = some { tape with left := tape.left.set index symbol }.row := by
  rw [CellRow.set?, if_pos (by rw [length_cells_row]; omega)]
  simp only [row, toList, origin, List.length_set]
  rw [List.set_append_left _ _ (by rw [List.length_reverse]; omega), ← HalfTape.reverse_set stored]

theorem trim_row (left : HalfTape) {right : HalfTape} {seeded : Nat} (enough : seeded ≤ right.length) :
    (row ⟨left, right, seeded⟩).trim = row ⟨HalfTape.trim 0 left, HalfTape.trim seeded right, seeded⟩ := by
  rw [CellRow.trim]
  simp only [row, toList, origin]
  rw [CellRow.trimFront_eq]
  dsimp only
  rw [List.reverse_append, List.reverse_reverse, CellRow.trimBack_eq enough, List.reverse_append, List.reverse_reverse]

namespace Canonical

theorem write?_row_right (canonical : tape.Canonical) {index : Nat} (stored : index < tape.right.length)
    (symbol : Symbol) : tape.row.write? (.ofNat index) symbol = some (tape.write (.ofNat index) symbol).row := by
  rw [CellRow.write?, index?_row_ofNat stored]
  dsimp only
  rw [set?_row_right stored, Option.map_some, Tape.write, canonical.right.write_stored stored]
  split
  · rw [trim_row _ (by rw [List.length_set]; exact canonical.right.kept_le), canonical.left.trim_eq]
  · rfl

theorem write?_row_left (canonical : tape.Canonical) {index : Nat} (stored : index < tape.left.length)
    (symbol : Symbol) : tape.row.write? (.negSucc index) symbol = some (tape.write (.negSucc index) symbol).row := by
  rw [CellRow.write?, index?_row_negSucc stored]
  dsimp only
  rw [set?_row_left stored, Option.map_some, Tape.write, canonical.left.write_stored stored]
  split
  · rw [trim_row _ canonical.right.kept_le, canonical.right.trim_eq]
  · rfl

theorem write?_row_beyond_right (canonical : tape.Canonical) {index : Nat} (beyond : tape.right.length ≤ index)
    (symbol : Symbol) : tape.row.write? (.ofNat index) symbol = some (tape.write (.ofNat index) symbol).row := by
  rw [CellRow.write?, index?_row_ofNat_beyond beyond]
  dsimp only
  split
  · rename_i isBlank
    rw [isBlank, Tape.write, canonical.right.write_blank_beyond beyond]
  · rename_i marked
    have inside : ¬ Int.ofNat index < tape.row.origin := by
      have lower : tape.row.origin ≤ 0 := tape.origin_nonpos
      rw [Int.ofNat_eq_natCast]
      omega
    have fill : (Int.ofNat index - tape.row.limit).toNat = index - tape.right.length := by
      rw [limit_row, limit, Int.ofNat_eq_natCast]
      omega
    rw [if_neg inside, fill, Tape.write, canonical.right.write_beyond beyond marked]
    simp only [row, toList, origin, List.append_assoc]

theorem write?_row_beyond_left (canonical : tape.Canonical) {index : Nat} (beyond : tape.left.length ≤ index)
    (symbol : Symbol) : tape.row.write? (.negSucc index) symbol = some (tape.write (.negSucc index) symbol).row := by
  rw [CellRow.write?, index?_row_negSucc_beyond beyond]
  dsimp only
  split
  · rename_i isBlank
    rw [isBlank, Tape.write, canonical.left.write_blank_beyond beyond]
  · rename_i marked
    have outside : .negSucc index < tape.row.origin := by
      simp only [row, origin]
      omega
    have fill : (tape.row.origin - .negSucc index).toNat = index - tape.left.length + 1 := by
      simp only [row, origin]
      omega
    rw [if_pos outside, fill, Tape.write, canonical.left.write_beyond beyond marked, List.replicate_succ, CellRow.set?,
      if_pos (by simp)]
    simp only [row, toList, origin, List.cons_append, List.set_cons_zero, List.reverse_append, List.reverse_singleton,
      List.reverse_replicate, List.nil_append, List.append_assoc, List.length_append, List.length_replicate,
      List.length_singleton]
    -- The cells agree. What is left is the position of the first one.
    congr 2
    omega

/-- A write to the row of a canonical tape asks for no cell that is not there, and leaves the row of the
tape that is written. -/
theorem write?_row (canonical : tape.Canonical) (position : Int) (symbol : Symbol) :
    tape.row.write? position symbol = some (tape.write position symbol).row := by
  cases position with
  | ofNat index =>
    by_cases stored : index < tape.right.length
    · exact canonical.write?_row_right stored symbol
    · exact canonical.write?_row_beyond_right (Nat.le_of_not_lt stored) symbol
  | negSucc index =>
    by_cases stored : index < tape.left.length
    · exact canonical.write?_row_left stored symbol
    · exact canonical.write?_row_beyond_left (Nat.le_of_not_lt stored) symbol

theorem writes?_row (canonical : tape.Canonical) (changes : List (Int × Symbol)) :
    tape.row.writes? changes = some (tape.writes changes).row := by
  induction changes generalizing tape with
  | nil => rfl
  | cons change changes ih =>
    rw [CellRow.writes?, List.foldlM_cons, canonical.write?_row]
    exact ih (canonical.write change.1 change.2)

end Canonical

theorem read_writes (tape : Tape) (changes : List (Int × Symbol)) (position : Int) :
    (tape.writes changes).read position = (changes.reverse.lookup position).getD (tape.read position) := by
  induction changes using List.reverseRecOn with
  | nil => rfl
  | append_singleton changes change ih =>
    have last : tape.writes (changes ++ [change]) = (tape.writes changes).write change.1 change.2 := by
      rw [writes, List.foldl_append]
      rfl
    rw [last, read_write, List.reverse_append, List.reverse_singleton, List.singleton_append, List.lookup_cons]
    by_cases here : position = change.1
    · rw [if_pos here, here, beq_self_eq_true]
      rfl
    · rw [if_neg here, beq_eq_false_iff_ne.mpr here]
      exact ih

/-- However it was written, a tape reads everywhere as the last write there has left it, and as the input
where nothing has been written. Kept as one row of cells that grows and shrinks at both ends, it reads the
same, and no read or write asks the row for a cell that it does not have. -/
theorem reads_last_write (input : String) (changes : List (Int × Symbol)) :
    let tape := (ofString input).writes changes
    (∀ position, tape.read position = (changes.reverse.lookup position).getD (inputCells input position)) ∧
    (∀ target symbol position, (tape.write target symbol).read position =
      if position = target then symbol else tape.read position) ∧
    (CellRow.ofString input).writes? changes = some tape.row ∧
    ∀ position, tape.row.read? position = some (tape.read position) := by
  intro tape
  refine ⟨?_, tape.read_write, (Canonical.ofString input).writes?_row changes, tape.read?_row⟩
  intro position
  rw [← read_ofString]
  exact read_writes (ofString input) changes position

/-- The row grows at both ends and gives the blanks in front back, but keeps those of the input. -/
example : (CellRow.ofString "_1").writes? [(-2, '1'), (9, '_'), (3, '0'), (-2, '_')] =
    some ⟨['_', '1', '_', '0'], 0, 2⟩ := by
  decide

end Tape

end TapeMachine
