import Mathlib.Data.Int.LeastGreatest
import Mathlib.Order.Bounds.Basic
import TapeMachine.Proofs.HalfTape

namespace TapeMachine.Tape

/-- The tape after some writes, the first of them first. -/
def writes (tape : Tape) (changes : List (Int × Symbol)) : Tape :=
  changes.foldl (fun tape change => tape.write change.1 change.2) tape

def marked (tape : Tape) : Set Int := {position | tape.read position ≠ blank}

@[simp] theorem seeded_write (tape : Tape) (target : Int) (symbol : Symbol) :
    (tape.write target symbol).seeded = tape.seeded := by
  cases target <;> rfl

theorem seeded_writes (tape : Tape) (changes : List (Int × Symbol)) :
    (tape.writes changes).seeded = tape.seeded := by
  induction changes generalizing tape with
  | nil => rfl
  | cons change changes ih => exact (ih _).trans (seeded_write tape change.1 change.2)

theorem read_write (tape : Tape) (target : Int) (symbol : Symbol) (position : Int) :
    (tape.write target symbol).read position =
      if position = target then symbol else tape.read position := by
  cases target with
  | ofNat target =>
    cases position with
    | ofNat position =>
      simp only [write, read, HalfTape.read_write, Int.ofNat_eq_natCast, Nat.cast_inj]
    | negSucc position => simp [write, read]
  | negSucc target =>
    cases position with
    | ofNat position => simp [write, read]
    | negSucc position => simp only [write, read, HalfTape.read_write, Int.negSucc_inj]

/-- Each half stores the fewest cells that its reads and the seeded input allow. -/
structure Canonical (tape : Tape) : Prop where
  left : HalfTape.Canonical 0 tape.left
  right : HalfTape.Canonical tape.seeded tape.right

theorem Canonical.ofString (input : String) : (ofString input).Canonical :=
  ⟨HalfTape.Canonical.nil, HalfTape.Canonical.self _⟩

theorem Canonical.write {tape : Tape} (canonical : tape.Canonical) (target : Int) (symbol : Symbol) :
    (tape.write target symbol).Canonical := by
  cases target with
  | ofNat target => exact ⟨canonical.left, canonical.right.write target symbol⟩
  | negSucc target => exact ⟨canonical.left.write target symbol, canonical.right⟩

theorem Canonical.writes {tape : Tape} (canonical : tape.Canonical) (changes : List (Int × Symbol)) :
    (tape.writes changes).Canonical := by
  induction changes generalizing tape with
  | nil => exact canonical
  | cons change changes ih => exact ih (canonical.write change.1 change.2)

/-- Canonical tapes for inputs of one length differ only if some cell does. -/
theorem Canonical.ext {tape other : Tape} (canonical : tape.Canonical) (otherCanonical : other.Canonical)
    (seeded : tape.seeded = other.seeded) (same : ∀ position, tape.read position = other.read position) :
    tape = other := by
  have left : tape.left = other.left :=
    canonical.left.ext otherCanonical.left (fun index => same (.negSucc index))
  have right : tape.right = other.right :=
    canonical.right.ext (seeded ▸ otherCanonical.right) (fun index => same (.ofNat index))
  cases tape
  cases other
  simp_all only

/-- Writing back what was read undoes a write, with whatever the write has grown or trimmed. -/
theorem Canonical.write_back {tape : Tape} (canonical : tape.Canonical) (target : Int) (symbol : Symbol) :
    (tape.write target symbol).write target (tape.read target) = tape := by
  refine ((canonical.write _ _).write _ _).ext canonical (by simp) ?_
  intro position
  rw [read_write, read_write]
  split
  · rename_i here
    rw [here]
  · rfl

theorem origin_nonpos (tape : Tape) : tape.origin ≤ 0 := by
  simp only [origin]
  omega

theorem limit_nonneg (tape : Tape) : 0 ≤ tape.limit := by
  simp only [limit]
  omega

theorem bounds_of_marked {tape : Tape} {position : Int} (mark : position ∈ tape.marked) :
    tape.origin ≤ position ∧ position < tape.limit := by
  cases position with
  | ofNat index =>
    have stored : index < tape.right.length := by
      by_contra beyond
      exact mark (HalfTape.read_of_length_le (by omega))
    have lower := tape.origin_nonpos
    simp only [limit, Int.ofNat_eq_natCast]
    omega
  | negSucc index =>
    have stored : index < tape.left.length := by
      by_contra beyond
      exact mark (HalfTape.read_of_length_le (by omega))
    have upper := tape.limit_nonneg
    simp only [origin]
    omega

theorem Canonical.seeded_le_limit {tape : Tape} (canonical : tape.Canonical) : tape.seeded ≤ tape.limit :=
  Int.ofNat_le.mpr canonical.right.kept_le

theorem Canonical.limit_le {tape : Tape} (canonical : tape.Canonical) {bound : Int}
    (seeded : tape.seeded ≤ bound) (blanks : ∀ position, bound ≤ position → tape.read position = blank) :
    tape.limit ≤ bound := by
  obtain ⟨index, rfl⟩ := Int.eq_ofNat_of_zero_le (show 0 ≤ bound by omega)
  exact Int.ofNat_le.mpr (canonical.right.length_le index (by omega)
    (fun position above => blanks (.ofNat position) (Int.ofNat_le.mpr above)))

theorem Canonical.le_origin {tape : Tape} (canonical : tape.Canonical) {bound : Int}
    (lower : bound ≤ 0) (blanks : ∀ position, position < bound → tape.read position = blank) :
    bound ≤ tape.origin := by
  obtain ⟨index, value⟩ := Int.eq_ofNat_of_zero_le (show 0 ≤ -bound by omega)
  have short := canonical.left.length_le index (Nat.zero_le _)
    (fun position below => blanks (.negSucc position) (by omega))
  simp only [origin]
  omega

theorem Canonical.extent_of_blank {tape : Tape} (canonical : tape.Canonical) (empty : tape.marked = ∅) :
    tape.origin = 0 ∧ tape.limit = tape.seeded := by
  have blanks : ∀ position, tape.read position = blank := by
    intro position
    by_contra mark
    exact (Set.eq_empty_iff_forall_notMem.mp empty position) mark
  have origin := canonical.le_origin le_rfl (fun position _ => blanks position)
  have limit := canonical.limit_le le_rfl (fun position _ => blanks position)
  exact ⟨le_antisymm tape.origin_nonpos origin, le_antisymm limit canonical.seeded_le_limit⟩

theorem Canonical.origin_eq {tape : Tape} (canonical : tape.Canonical) {least : Int}
    (isLeast : IsLeast tape.marked least) : tape.origin = min 0 least := by
  have stored := bounds_of_marked isLeast.1
  refine le_antisymm (le_min tape.origin_nonpos stored.1) (canonical.le_origin (min_le_left _ _) ?_)
  intro position below
  by_contra mark
  have above : least ≤ position := isLeast.2 mark
  omega

theorem Canonical.limit_eq {tape : Tape} (canonical : tape.Canonical) {greatest : Int}
    (isGreatest : IsGreatest tape.marked greatest) : tape.limit = max (tape.seeded : Int) (greatest + 1) := by
  have stored := bounds_of_marked isGreatest.1
  refine le_antisymm (canonical.limit_le (le_max_left _ _) ?_) (max_le canonical.seeded_le_limit stored.2)
  intro position above
  by_contra mark
  have below : position ≤ greatest := isGreatest.2 mark
  omega

theorem exists_least_greatest {tape : Tape} (nonempty : tape.marked ≠ ∅) :
    ∃ least greatest, IsLeast tape.marked least ∧ IsGreatest tape.marked greatest := by
  have some : ∃ position, position ∈ tape.marked := Set.nonempty_iff_ne_empty.mpr nonempty
  obtain ⟨least, inLeast, isLeast⟩ :=
    Int.exists_least_of_bdd ⟨tape.origin, fun _ mark => (bounds_of_marked mark).1⟩ some
  obtain ⟨greatest, inGreatest, isGreatest⟩ :=
    Int.exists_greatest_of_bdd ⟨tape.limit, fun _ mark => (bounds_of_marked mark).2.le⟩ some
  exact ⟨least, greatest, ⟨inLeast, isLeast⟩, ⟨inGreatest, isGreatest⟩⟩

theorem toList_eq_reads (tape : Tape) :
    tape.toList = (List.range (tape.limit - tape.origin).toNat).map
      (fun offset : Nat => tape.read (tape.origin + offset)) := by
  have size : (tape.limit - tape.origin).toNat = tape.left.length + tape.right.length := by
    simp only [limit, origin]
    omega
  rw [size]
  refine List.ext_getElem (by simp [toList]) ?_
  intro index stored _
  simp only [toList, List.length_append, List.length_reverse] at stored
  simp only [toList, List.getElem_map, List.getElem_range]
  by_cases onLeft : index < tape.left.length
  · have position : tape.origin + index = .negSucc (tape.left.length - 1 - index) := by
      simp only [origin]
      omega
    rw [List.getElem_append_left (by simpa using onLeft), List.getElem_reverse, position]
    exact HalfTape.getElem_eq_read _
  · have position : tape.origin + index = .ofNat (index - tape.left.length) := by
      simp only [origin, Int.ofNat_eq_natCast]
      omega
    rw [List.getElem_append_right (by simpa using onLeft), position]
    simp only [List.length_reverse]
    exact HalfTape.getElem_eq_read _

/-- However it was written, a tape stores the input's cells and what lies between position 0 and the
outermost symbols that are not blank, and it lists what is read there. So the length of the input and
the reads determine the tape. -/
theorem extent_after_writes (input : String) (changes : List (Int × Symbol)) :
    let tape := (ofString input).writes changes
    (tape.marked = ∅ ∧ tape.origin = 0 ∧ tape.limit = input.length ∨
      ∃ least greatest, IsLeast tape.marked least ∧ IsGreatest tape.marked greatest ∧
        tape.origin = min 0 least ∧ tape.limit = max (input.length : Int) (greatest + 1)) ∧
    tape.toList = (List.range (tape.limit - tape.origin).toNat).map
      (fun offset : Nat => tape.read (tape.origin + offset)) ∧
    ∀ (otherInput : String) (otherChanges : List (Int × Symbol)),
      let other := (ofString otherInput).writes otherChanges
      otherInput.length = input.length → (∀ position, other.read position = tape.read position) →
      other = tape ∧ other.origin = tape.origin ∧ other.limit = tape.limit ∧ other.text = tape.text := by
  intro tape
  have canonical : tape.Canonical := (Canonical.ofString input).writes changes
  have seeded : tape.seeded = input.length := seeded_writes (ofString input) changes
  refine ⟨?_, tape.toList_eq_reads, ?_⟩
  · by_cases empty : tape.marked = ∅
    · obtain ⟨origin, limit⟩ := canonical.extent_of_blank empty
      exact Or.inl ⟨empty, origin, by rw [limit, seeded]⟩
    · obtain ⟨least, greatest, isLeast, isGreatest⟩ := exists_least_greatest empty
      have limit := canonical.limit_eq isGreatest
      rw [seeded] at limit
      exact Or.inr ⟨least, greatest, isLeast, isGreatest, canonical.origin_eq isLeast, limit⟩
  · intro otherInput otherChanges other sameLength sameReads
    have otherCanonical : other.Canonical := (Canonical.ofString otherInput).writes otherChanges
    have otherSeeded : other.seeded = otherInput.length := seeded_writes (ofString otherInput) otherChanges
    have equal : other = tape :=
      otherCanonical.ext canonical (by rw [otherSeeded, seeded, sameLength]) sameReads
    exact ⟨equal, by rw [equal], by rw [equal], by rw [equal]⟩

/-- Symbols far outside the input leave nothing behind once they are erased. -/
theorem extent_after_writes_erased :
    (∀ position, ((ofString "1_").writes [(-1, '1')]).read position =
      ((ofString "1_").writes [(5, '1'), (-1, '1'), (5, '_'), (7, '_')]).read position) ∧
    (ofString "1_").writes [(-1, '1')] =
      (ofString "1_").writes [(5, '1'), (-1, '1'), (5, '_'), (7, '_')] := by
  have same : ∀ position, ((ofString "1_").writes [(-1, '1')]).read position =
      ((ofString "1_").writes [(5, '1'), (-1, '1'), (5, '_'), (7, '_')]).read position := by
    intro position
    have five : (ofString "1_").read 5 = '_' := by decide
    have seven : (ofString "1_").read 7 = '_' := by decide
    simp only [writes, List.foldl_cons, List.foldl_nil, read_write]
    split_ifs <;> simp_all
  exact ⟨same, ((extent_after_writes "1_" [(5, '1'), (-1, '1'), (5, '_'), (7, '_')]).2.2
    "1_" [(-1, '1')] rfl same).1⟩

end TapeMachine.Tape
