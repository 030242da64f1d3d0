import Mathlib.Logic.Relation
import TapeMachine.Analysis.Reachability

namespace TapeMachine.Table

/-- One rule leads from `state` to `next`. -/
def Leads (table : Table) (state next : State) : Prop :=
  ∃ rule ∈ table.rules, rule.start = state ∧ rule.next = next

/-- A chain of rules leads from `initial` to `state`, and the chain may be empty. -/
def Reaches (table : Table) (initial state : State) : Prop := Relation.ReflTransGen table.Leads initial state

theorem mem_successors_iff {table : Table} {state next : State} : next ∈ table.successors state ↔ table.Leads state next := by
  simp [successors, Leads, and_assoc]

/-- Where a search stands: it has seen nothing but reached states, and what a visited state leads to
is visited or pending. -/
structure Searched (table : Table) (initial : State) (visited pending : List State) : Prop where
  found : ∀ state, state ∈ visited ∨ state ∈ pending → table.Reaches initial state
  begun : initial ∈ visited ∨ initial ∈ pending
  followed : ∀ state next, state ∈ visited → table.Leads state next → next ∈ visited ∨ next ∈ pending

namespace Searched

variable {table : Table} {initial state : State} {visited pending : List State}

theorem start (table : Table) (initial : State) : Searched table initial [] [initial] := by
  refine ⟨?_, Or.inr (List.mem_singleton.mpr rfl), fun _ _ member => absurd member List.not_mem_nil⟩
  rintro state (member | member)
  · cases member
  · rw [List.mem_singleton.mp member]
    exact .refl

theorem skip (searched : Searched table initial visited (state :: pending)) (known : state ∈ visited) :
    Searched table initial visited pending := by
  have drop : ∀ other, other ∈ visited ∨ other ∈ state :: pending → other ∈ visited ∨ other ∈ pending := by
    rintro other (old | member)
    · exact Or.inl old
    · rcases List.mem_cons.mp member with rfl | later
      · exact Or.inl known
      · exact Or.inr later
  refine ⟨?_, drop _ searched.begun, fun old next member leads => drop _ (searched.followed old next member leads)⟩
  exact fun other member => searched.found other (member.imp_right (List.mem_cons_of_mem _))

theorem visit (searched : Searched table initial visited (state :: pending)) :
    Searched table initial (state :: visited)
      (((table.successors state).filter (· ∉ state :: visited)).reverse ++ pending) := by
  have reached : table.Reaches initial state := searched.found state (Or.inr (List.mem_cons_self ..))
  have move : ∀ other, other ∈ visited ∨ other ∈ state :: pending →
      other ∈ state :: visited ∨
        other ∈ ((table.successors state).filter (· ∉ state :: visited)).reverse ++ pending := by
    rintro other (old | member)
    · exact Or.inl (List.mem_cons_of_mem _ old)
    · rcases List.mem_cons.mp member with rfl | later
      · exact Or.inl (List.mem_cons_self ..)
      · exact Or.inr (List.mem_append_right _ later)
  refine ⟨?_, move _ searched.begun, ?_⟩
  · rintro other (member | member)
    · rcases List.mem_cons.mp member with rfl | old
      · exact reached
      · exact searched.found other (Or.inl old)
    · rcases List.mem_append.mp member with fresh | later
      · have leads := mem_successors_iff.mp (List.mem_filter.mp (List.mem_reverse.mp fresh)).1
        exact reached.tail leads
      · exact searched.found other (Or.inr (List.mem_cons_of_mem _ later))
  · intro other next member leads
    rcases List.mem_cons.mp member with rfl | old
    · by_cases known : next ∈ other :: visited
      · exact Or.inl known
      · refine Or.inr (List.mem_append_left _ (List.mem_reverse.mpr (List.mem_filter.mpr ?_)))
        exact ⟨mem_successors_iff.mpr leads, by simpa using known⟩
    · exact move next (searched.followed other next old leads)

theorem explore (searched : Searched table initial visited pending) (rounds : Nat) :
    Searched table initial (table.explore rounds visited pending).1 (table.explore rounds visited pending).2 := by
  induction rounds generalizing visited pending with
  | zero => exact searched
  | succ rounds ih =>
    cases pending with
    | nil => exact searched
    | cons state pending =>
      unfold Table.explore
      split
      · exact ih (searched.skip ‹_›)
      · exact ih searched.visit

/-- Once nothing is pending, the visited states are the reached ones. -/
theorem mem_iff (searched : Searched table initial visited []) {state : State} :
    state ∈ visited ↔ table.Reaches initial state := by
  refine ⟨fun member => searched.found state (Or.inl member), fun reaches => ?_⟩
  induction reaches with
  | refl => exact searched.begun.resolve_right List.not_mem_nil
  | tail _ leads ih => exact (searched.followed _ _ ih leads).resolve_right List.not_mem_nil

end Searched

/-- The rules from states that have not been visited: each of them may still make its end pending. -/
def unfollowed (table : Table) (visited : List State) : List Rule := table.rules.filter (·.start ∉ visited)

theorem length_unfollowed_cons {table : Table} {state : State} {visited : List State} (fresh : state ∉ visited) :
    (table.unfollowed visited).length =
      (table.unfollowed (state :: visited)).length + (table.successors state).length := by
  have followed : (table.unfollowed visited).filter (·.start = state) = table.rules.filter (·.start = state) := by
    rw [unfollowed, List.filter_filter]
    refine List.filter_congr fun rule _ => ?_
    by_cases here : rule.start = state <;> simp [here, fresh]
  have left : (table.unfollowed visited).filter (fun rule => !decide (rule.start = state)) =
      table.unfollowed (state :: visited) := by
    rw [unfollowed, List.filter_filter]
    refine List.filter_congr fun rule _ => ?_
    by_cases here : rule.start = state <;> simp [here]
  have parts := (List.filter_append_perm (·.start = state) (table.unfollowed visited)).length_eq
  rw [followed, left, List.length_append] at parts
  rw [successors, List.length_map]
  omega

/-- A round takes a pending state away, and for each one that it adds it has followed a rule. -/
theorem explore_pending_eq_nil {table : Table} {rounds : Nat} {visited pending : List State}
    (enough : pending.length + (table.unfollowed visited).length ≤ rounds) :
    (table.explore rounds visited pending).2 = [] := by
  induction rounds generalizing visited pending with
  | zero =>
    have none : pending.length = 0 := by omega
    exact List.length_eq_zero_iff.mp none
  | succ rounds ih =>
    cases pending with
    | nil => rfl
    | cons state pending =>
      unfold explore
      rw [List.length_cons] at enough
      split
      · exact ih (by omega)
      · rename_i fresh
        apply ih
        have added := List.length_filter_le (· ∉ state :: visited) (table.successors state)
        have followed : (table.unfollowed visited).length = _ := length_unfollowed_cons fresh
        rw [List.length_append, List.length_reverse]
        omega

theorem pending_after_reachable (table : Table) (initial : State) :
    (table.explore (table.rules.length + 1) [] [initial]).2 = [] := by
  have rules := List.length_filter_le (·.start ∉ ([] : List State)) table.rules
  apply explore_pending_eq_nil
  rw [List.length_singleton, unfollowed]
  omega

/-- The search finds the states that a chain of rules leads to, and no others. -/
theorem mem_reachable_iff {table : Table} {initial state : State} :
    state ∈ table.reachable initial ↔ table.Reaches initial state := by
  have searched := (Searched.start table initial).explore (table.rules.length + 1)
  rw [pending_after_reachable] at searched
  exact searched.mem_iff

instance (table : Table) (initial state : State) : Decidable (table.Reaches initial state) :=
  decidable_of_iff (state ∈ table.reachable initial) mem_reachable_iff

end TapeMachine.Table
