import TapeMachine.Proofs.HalfTape

namespace TapeMachine.HalfTape

/-- Takes blanks off the end, but none of the first `kept` cells. -/
def trim (kept : Nat) : HalfTape → HalfTape
  | [] => []
  | cell :: rest => put (0 < kept) cell (trim (kept - 1) rest)

theorem read_trim (kept : Nat) (cells : HalfTape) (index : Nat) : read (trim kept cells) index = read cells index := by
  induction cells generalizing kept index with
  | nil => rfl
  | cons cell rest ih =>
    rw [trim, read_put]
    cases index with
    | zero => simp
    | succ index => simp [ih]

theorem Canonical.trim {kept : Nat} {cells : HalfTape} (enough : kept ≤ cells.length) :
    Canonical kept (trim kept cells) := by
  induction cells generalizing kept with
  | nil =>
    obtain rfl : kept = 0 := Nat.le_zero.mp enough
    exact Canonical.nil
  | cons cell rest ih =>
    rw [List.length_cons] at enough
    exact (ih (by omega)).put

theorem Canonical.trim_eq {kept : Nat} {cells : HalfTape} (canonical : Canonical kept cells) :
    HalfTape.trim kept cells = cells :=
  (Canonical.trim canonical.kept_le).ext canonical (read_trim kept cells)

theorem trim_concat_blank {kept : Nat} {cells : HalfTape} (enough : kept ≤ cells.length) :
    trim kept (cells ++ [blank]) = trim kept cells := by
  have longer : kept ≤ (cells ++ [blank]).length := by
    rw [List.length_append]
    omega
  refine (Canonical.trim longer).ext (Canonical.trim enough) ?_
  intro index
  rw [read_trim, read_trim, read_append]
  split
  · rfl
  · rename_i beyond
    rw [read_of_length_le (Nat.le_of_not_lt beyond)]
    cases index - cells.length <;> simp

theorem read_set {cells : HalfTape} {target : Nat} (stored : target < cells.length) (symbol : Symbol) (index : Nat) :
    read (cells.set target symbol) index = if index = target then symbol else read cells index := by
  by_cases here : index = target
  · subst here
    simp [read, stored]
  · simp [read, here, List.getElem?_set_ne (Ne.symm here)]

theorem Canonical.set {kept : Nat} {cells : HalfTape} (canonical : Canonical kept cells) {target : Nat}
    (stored : target < cells.length) {symbol : Symbol} (marked : symbol ≠ blank) :
    Canonical kept (cells.set target symbol) := by
  refine ⟨by simpa using canonical.kept_le, ?_⟩
  intro bound above blanks
  have within : target < bound := by
    by_contra beyond
    have isBlank := blanks target (by omega)
    rw [read_set stored, if_pos rfl] at isBlank
    exact marked isBlank
  rw [List.length_set]
  refine canonical.length_le bound above fun index beyond => ?_
  have same := blanks index beyond
  rwa [read_set stored, if_neg (by omega)] at same

/-- A write to a stored cell replaces it, and only a blank can make the half tape shorter. -/
theorem Canonical.write_stored {kept : Nat} {cells : HalfTape} (canonical : Canonical kept cells) {target : Nat}
    (stored : target < cells.length) (symbol : Symbol) :
    HalfTape.write kept cells target symbol =
      if symbol = blank then HalfTape.trim kept (cells.set target symbol) else cells.set target symbol := by
  have enough : kept ≤ (cells.set target symbol).length := by
    rw [List.length_set]
    exact canonical.kept_le
  split
  · refine (canonical.write target symbol).ext (Canonical.trim enough) fun index => ?_
    rw [read_write, read_trim, read_set stored]
  · rename_i marked
    refine (canonical.write target symbol).ext (canonical.set stored marked) fun index => ?_
    rw [read_write, read_set stored]

theorem Canonical.write_blank_beyond {kept : Nat} {cells : HalfTape} (canonical : Canonical kept cells) {target : Nat}
    (beyond : cells.length ≤ target) : HalfTape.write kept cells target blank = cells := by
  refine (canonical.write target blank).ext canonical fun index => ?_
  rw [read_write]
  split
  · rename_i here
    rw [here, read_of_length_le beyond]
  · rfl

/-- A write beyond the stored cells fills the cells between with blanks. -/
theorem Canonical.write_beyond {kept : Nat} {cells : HalfTape} (canonical : Canonical kept cells) {target : Nat}
    (beyond : cells.length ≤ target) {symbol : Symbol} (marked : symbol ≠ blank) :
    HalfTape.write kept cells target symbol =
      cells ++ (List.replicate (target - cells.length) blank ++ [symbol]) := by
  have grown : Canonical kept (cells ++ (List.replicate (target - cells.length) blank ++ [symbol])) := by
    rw [← List.append_assoc]
    refine Canonical.concat marked ?_
    have enough := canonical.kept_le
    rw [List.length_append]
    omega
  refine (canonical.write target symbol).ext grown fun index => ?_
  rw [read_write, read_append, read_replicate_append]
  by_cases within : index < cells.length
  · rw [if_pos within, if_neg (by omega)]
  · rw [if_neg within, read_of_length_le (Nat.le_of_not_lt within)]
    exact if_congr (by omega) rfl rfl

theorem reverse_set {cells : HalfTape} {target : Nat} (stored : target < cells.length) (symbol : Symbol) :
    (cells.set target symbol).reverse = cells.reverse.set (cells.length - 1 - target) symbol := by
  refine List.ext_getElem (by simp) ?_
  intro place within _
  rw [List.length_reverse, List.length_set] at within
  simp only [List.getElem_reverse, List.getElem_set, List.length_set]
  exact if_congr (by omega) rfl rfl

end TapeMachine.HalfTape
