import TapeMachine.Proofs.CellRow

namespace TapeMachine

/-- One more than the greatest signed number of 64 bits. -/
def wordLimit : Nat := Nat.pow 2 63

/-- What a computation with signed numbers of 64 bits gives. There is no answer if it overflows. -/
def word? (value : Int) : Option Int := if -wordLimit ≤ value ∧ value < wordLimit then some value else none

theorem wordLimit_pos : 0 < wordLimit := by decide

theorem word?_eq_some {value : Int} (lower : -wordLimit ≤ value) (upper : value < wordLimit) : word? value = some value :=
  if_pos ⟨lower, upper⟩

namespace CellRow

/-- The position after the last cell. The count of the cells has to become a signed number first. -/
def limitWord? (row : CellRow) : Option Int := do
  let length ← word? row.cells.length
  word? (row.origin + length)

def indexWord? (row : CellRow) (position : Int) : Option (Option Nat) := do
  let limit ← row.limitWord?
  if row.origin ≤ position ∧ position < limit then
    let index ← word? (position - row.origin)
    return some index.toNat
  else return none

def readWord? (row : CellRow) (position : Int) : Option Symbol := do
  match ← row.indexWord? position with
  | some index => row.cells[index]?
  | none => return blank

def trimFrontWord? (seeded : Nat) : Int → List Symbol → Option CellRow
  | origin, [] => some ⟨[], origin, seeded⟩
  | origin, cell :: rest =>
    if origin < 0 ∧ cell = blank then do
      let next ← word? (origin + 1)
      trimFrontWord? seeded next rest
    else some ⟨cell :: rest, origin, seeded⟩

/-- The end is computed anew for each cell, and once more when there is none. -/
def trimBackWord? (seeded : Nat) (origin : Int) : List Symbol → Option (List Symbol)
  | [] => do
    let _ ← limitWord? ⟨[], origin, seeded⟩
    let _ ← word? seeded
    return []
  | cell :: before => do
    let limit ← limitWord? ⟨cell :: before, origin, seeded⟩
    let kept ← word? seeded
    if kept < limit ∧ cell = blank then trimBackWord? seeded origin before else return cell :: before

def trimWord? (row : CellRow) : Option CellRow := do
  let row ← trimFrontWord? row.seeded row.origin row.cells
  let cells ← trimBackWord? row.seeded row.origin row.cells.reverse
  return { row with cells := cells.reverse }

/-- Writes as `write?` does, with every position computed in words. The blanks that fill a gap are counted
from one word up to another. -/
def writeWord? (row : CellRow) (position : Int) (symbol : Symbol) : Option CellRow := do
  match ← row.indexWord? position with
  | some index =>
    let row ← row.set? index symbol
    if symbol = blank then row.trimWord? else return row
  | none =>
    if symbol = blank then return row
    else if position < row.origin then
      let fill := List.replicate (row.origin - position).toNat blank
      set? { row with cells := fill ++ row.cells, origin := position } 0 symbol
    else
      let limit ← row.limitWord?
      let fill := List.replicate (position - limit).toNat blank
      return { row with cells := row.cells ++ (fill ++ [symbol]) }

/-- A row that can be computed with in words. It begins no further right than position 0. -/
structure Fits (row : CellRow) : Prop where
  lower : -wordLimit ≤ row.origin
  nonpos : row.origin ≤ 0
  length : row.cells.length < wordLimit
  seeded : row.seeded < wordLimit

theorem trimFrontWord?_eq {seeded : Nat} {origin : Int} {cells : List Symbol} (lower : -wordLimit ≤ origin) :
    trimFrontWord? seeded origin cells = some (trimFront seeded origin cells) := by
  induction cells generalizing origin with
  | nil => rfl
  | cons cell rest ih =>
    rw [trimFrontWord?, trimFront]
    split
    · have positive := wordLimit_pos
      rw [word?_eq_some (by omega) (by omega), ← ih (by omega)]
      rfl
    · rfl

theorem Fits.trimFront {seeded : Nat} {origin : Int} {cells : List Symbol} (fits : Fits ⟨cells, origin, seeded⟩) :
    (trimFront seeded origin cells).Fits := by
  induction cells generalizing origin with
  | nil => exact fits
  | cons cell rest ih =>
    rw [CellRow.trimFront]
    split
    · obtain ⟨lower, nonpos, length, seeded⟩ := fits
      dsimp only [List.length_cons] at lower nonpos length
      refine ih ⟨?_, ?_, ?_, seeded⟩ <;> dsimp only <;> omega
    · exact fits

namespace Fits

variable {row : CellRow} (fits : row.Fits)
include fits

theorem limitWord? : row.limitWord? = some row.limit := by
  obtain ⟨lower, nonpos, length, _⟩ := fits
  rw [CellRow.limitWord?, word?_eq_some (by omega) (by omega)]
  exact word?_eq_some (by omega) (by omega)

theorem indexWord? (position : Int) : row.indexWord? position = some (row.index? position) := by
  rw [CellRow.indexWord?, fits.limitWord?, index?]
  obtain ⟨_, _, length, _⟩ := fits
  dsimp only [bind, Option.bind]
  split
  · rename_i stored
    rw [limit] at stored
    rw [word?_eq_some (by omega) (by omega)]
    rfl
  · rfl

theorem readWord? (position : Int) : row.readWord? position = row.read? position := by
  rw [CellRow.readWord?, fits.indexWord?, read?]
  rfl

end Fits

theorem trimBackWord?_eq {seeded : Nat} {origin : Int} {cells : List Symbol} (fits : Fits ⟨cells, origin, seeded⟩) :
    trimBackWord? seeded origin cells = some (trimBack seeded origin cells) := by
  have small : seeded < wordLimit := fits.seeded
  have kept : word? seeded = some (seeded : Int) := word?_eq_some (by omega) (by omega)
  induction cells with
  | nil =>
    simp only [trimBackWord?, fits.limitWord?, kept, Option.bind_eq_bind, Option.bind_some]
    rfl
  | cons cell before ih =>
    have shorter : Fits ⟨before, origin, seeded⟩ :=
      ⟨fits.lower, fits.nonpos, Nat.lt_of_succ_lt fits.length, fits.seeded⟩
    simp only [trimBackWord?, fits.limitWord?, kept, Option.bind_eq_bind, Option.bind_some, trimBack, ih shorter,
      limit, List.length_cons, Nat.cast_add_one]
    split <;> rfl

namespace Fits

variable {row : CellRow} (fits : row.Fits)
include fits

theorem trimWord? : row.trimWord? = some row.trim := by
  have front : (CellRow.trimFront row.seeded row.origin row.cells).Fits := trimFront fits
  have reversed : Fits ⟨(CellRow.trimFront row.seeded row.origin row.cells).cells.reverse,
      (CellRow.trimFront row.seeded row.origin row.cells).origin,
      (CellRow.trimFront row.seeded row.origin row.cells).seeded⟩ :=
    ⟨front.lower, front.nonpos, by simpa using front.length, front.seeded⟩
  simp only [CellRow.trimWord?, trimFrontWord?_eq fits.lower, trimBackWord?_eq reversed, Option.bind_eq_bind,
    Option.bind_some, trim]
  rfl

theorem set? {index : Nat} {symbol : Symbol} {changed : CellRow} (isSet : row.set? index symbol = some changed) :
    changed.Fits := by
  obtain ⟨_, same⟩ := Option.ite_none_right_eq_some.mp isSet
  cases same
  exact ⟨fits.lower, fits.nonpos, by simpa using fits.length, fits.seeded⟩

/-- No computation of a write overflows, wherever it goes. -/
theorem writeWord? (position : Int) (symbol : Symbol) : row.writeWord? position symbol = row.write? position symbol := by
  simp only [CellRow.writeWord?, fits.indexWord?, fits.limitWord?, Option.bind_eq_bind, Option.bind_some, write?]
  cases row.index? position with
  | none => rfl
  | some index =>
    dsimp only
    cases isSet : row.set? index symbol with
    | none => rfl
    | some changed =>
      rw [Option.bind_some, Option.map_some, (fits.set? isSet).trimWord?]
      split <;> rfl

end Fits

end CellRow

end TapeMachine
