import Mathlib.Data.List.GetD
import Mathlib.Tactic.ByContra
import TapeMachine.Tape

namespace TapeMachine.HalfTape

@[simp] theorem read_nil (index : Nat) : read [] index = blank := by
  simp [read]

@[simp] theorem read_cons_zero (cell : Symbol) (rest : HalfTape) : read (cell :: rest) 0 = cell := by
  simp [read]

@[simp] theorem read_cons_succ (cell : Symbol) (rest : HalfTape) (index : Nat) :
    read (cell :: rest) (index + 1) = read rest index := by
  simp [read]

theorem read_of_length_le {cells : HalfTape} {index : Nat} (beyond : cells.length ≤ index) :
    read cells index = blank := by
  simp [read, List.getElem?_eq_none beyond]

theorem getElem_eq_read {cells : HalfTape} {index : Nat} (stored : index < cells.length) :
    cells[index] = read cells index := by
  simp [read, List.getElem?_eq_getElem stored]

theorem read_put (kept : Bool) (cell : Symbol) (rest : HalfTape) (index : Nat) :
    read (put kept cell rest) index = read (cell :: rest) index := by
  unfold put
  split
  · rename_i dropped
    obtain ⟨isBlank, isEmpty, _⟩ := dropped
    subst isBlank isEmpty
    cases index <;> simp
  · rfl

theorem read_append (cells others : HalfTape) (index : Nat) :
    read (cells ++ others) index =
      if index < cells.length then read cells index else read others (index - cells.length) := by
  split
  · rename_i within
    exact List.getD_append cells others blank index within
  · rename_i beyond
    exact List.getD_append_right cells others blank index (Nat.le_of_not_lt beyond)

theorem read_replicate_append (fill : Nat) (symbol : Symbol) (index : Nat) :
    read (List.replicate fill blank ++ [symbol]) index = if index = fill then symbol else blank := by
  induction fill generalizing index with
  | zero => cases index <;> simp
  | succ fill ih =>
    cases index with
    | zero => simp [List.replicate_succ]
    | succ index => simp [List.replicate_succ, ih]

/-- A write is seen at its own position and nowhere else. -/
theorem read_write (kept : Nat) (cells : HalfTape) (target : Nat) (symbol : Symbol) (index : Nat) :
    read (write kept cells target symbol) index = if index = target then symbol else read cells index := by
  induction cells generalizing kept target index with
  | nil =>
    unfold write
    split
    · rename_i isBlank
      simp [isBlank]
    · simp [read_replicate_append]
  | cons cell rest ih =>
    cases target with
    | zero =>
      rw [write, read_put]
      cases index <;> simp
    | succ target =>
      rw [write, read_put]
      cases index with
      | zero => simp
      | succ index => simp [ih]

/-- The fewest cells that hold the first `kept` positions and every symbol that is not blank. -/
structure Canonical (kept : Nat) (cells : HalfTape) : Prop where
  kept_le : kept ≤ cells.length
  length_le : ∀ bound, kept ≤ bound → (∀ index, bound ≤ index → read cells index = blank) →
    cells.length ≤ bound

theorem Canonical.self (cells : HalfTape) : Canonical cells.length cells :=
  ⟨Nat.le_refl _, fun _ kept _ => kept⟩

theorem Canonical.nil : Canonical 0 [] := Canonical.self []

theorem Canonical.tail {kept : Nat} {cell : Symbol} {rest : HalfTape}
    (canonical : Canonical kept (cell :: rest)) : Canonical (kept - 1) rest := by
  obtain ⟨kept_le, length_le⟩ := canonical
  simp only [List.length_cons] at kept_le length_le
  refine ⟨by omega, ?_⟩
  intro bound above blanks
  have shorter := length_le (bound + 1) (by omega) (by
    intro index lower
    obtain ⟨before, rfl⟩ : ∃ before, index = before + 1 := ⟨index - 1, by omega⟩
    rw [read_cons_succ]
    exact blanks before (by omega))
  omega

theorem Canonical.put {kept : Nat} {cell : Symbol} {rest : HalfTape}
    (canonical : Canonical (kept - 1) rest) : Canonical kept (put (0 < kept) cell rest) := by
  unfold HalfTape.put
  split
  · rename_i dropped
    obtain ⟨_, _, unkept⟩ := dropped
    obtain rfl : kept = 0 := by simpa using unkept
    exact Canonical.nil
  · rename_i stored
    refine ⟨by have := canonical.kept_le; simp only [List.length_cons]; omega, ?_⟩
    intro bound above blanks
    cases bound with
    | zero =>
      -- Nothing is kept and all is blank, so `put` had dropped the cell.
      have restEmpty : rest.length ≤ 0 :=
        canonical.length_le 0 (by omega) (fun index _ => by simpa using blanks (index + 1) (by omega))
      have cellBlank : cell = blank := by simpa using blanks 0 (Nat.le_refl 0)
      have noRest : rest = [] := List.length_eq_zero_iff.mp (by omega)
      have unkept : kept = 0 := by omega
      exact absurd ⟨cellBlank, noRest, by simp [unkept]⟩ stored
    | succ bound =>
      have shorter : rest.length ≤ bound :=
        canonical.length_le bound (by omega) (fun index lower => by
          simpa using blanks (index + 1) (by omega))
      simp only [List.length_cons]
      omega

theorem Canonical.concat {symbol : Symbol} (marked : symbol ≠ blank) {kept : Nat} {cells : HalfTape}
    (enough : kept ≤ cells.length + 1) : Canonical kept (cells ++ [symbol]) := by
  refine ⟨by simpa using enough, ?_⟩
  intro bound _ blanks
  by_contra longer
  rw [List.length_append, List.length_singleton] at longer
  have isBlank := blanks cells.length (by omega)
  rw [read_append, if_neg (Nat.lt_irrefl _), Nat.sub_self, read_cons_zero] at isBlank
  exact marked isBlank

theorem Canonical.write {kept : Nat} {cells : HalfTape} (canonical : Canonical kept cells)
    (target : Nat) (symbol : Symbol) : Canonical kept (write kept cells target symbol) := by
  induction cells generalizing kept target with
  | nil =>
    obtain rfl : kept = 0 := Nat.le_zero.mp canonical.kept_le
    unfold HalfTape.write
    split
    · exact canonical
    · rename_i marked
      exact Canonical.concat marked (Nat.zero_le _)
  | cons cell rest ih =>
    cases target with
    | zero => exact canonical.tail.put
    | succ target => exact (ih canonical.tail target).put

theorem Canonical.length_le_of_read_eq {kept : Nat} {cells others : HalfTape}
    (canonical : Canonical kept cells) (other : Canonical kept others)
    (same : ∀ index, read cells index = read others index) : cells.length ≤ others.length := by
  refine canonical.length_le others.length other.kept_le ?_
  intro index beyond
  rw [same, read_of_length_le beyond]

/-- What is read, and how much is kept, determine the stored cells. -/
theorem Canonical.ext {kept : Nat} {cells others : HalfTape}
    (canonical : Canonical kept cells) (other : Canonical kept others)
    (same : ∀ index, read cells index = read others index) : cells = others := by
  have shorter := canonical.length_le_of_read_eq other same
  have longer := other.length_le_of_read_eq canonical (fun index => (same index).symm)
  refine List.ext_getElem (by omega) ?_
  intro index stored storedOther
  rw [getElem_eq_read stored, getElem_eq_read storedOther, same]

end TapeMachine.HalfTape
