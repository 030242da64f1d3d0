import TapeMachine.Proofs.Verdict

namespace TapeMachine.Table

/-- A search without a bound on its rounds: how many it takes until nothing is pending, and what it has
visited then. -/
inductive Search (table : Table) : List State → List State → Nat → List State → Prop
  | done {visited} : Search table visited [] 0 visited
  | skip {visited state pending rounds found} : state ∈ visited → Search table visited pending rounds found →
      Search table visited (state :: pending) (rounds + 1) found
  | visit {visited state pending rounds found} : state ∉ visited →
      Search table (state :: visited)
        (((table.successors state).filter (· ∉ state :: visited)).reverse ++ pending) rounds found →
      Search table visited (state :: pending) (rounds + 1) found

/-- A search that has nothing pending within its bound does not need the bound. -/
theorem search_of_explore {table : Table} {rounds : Nat} {visited pending : List State}
    (finished : (table.explore rounds visited pending).2 = []) :
    ∃ count ≤ rounds, table.Search visited pending count (table.explore rounds visited pending).1 := by
  induction rounds generalizing visited pending with
  | zero =>
    obtain rfl : pending = [] := finished
    exact ⟨0, Nat.le_refl 0, .done⟩
  | succ rounds ih =>
    cases pending with
    | nil => exact ⟨0, Nat.zero_le _, .done⟩
    | cons state pending =>
      unfold explore at finished ⊢
      split at finished
      · rename_i known
        obtain ⟨count, within, search⟩ := ih finished
        rw [if_pos known]
        exact ⟨count + 1, Nat.succ_le_succ within, .skip known search⟩
      · rename_i fresh
        obtain ⟨count, within, search⟩ := ih finished
        rw [if_neg fresh]
        exact ⟨count + 1, Nat.succ_le_succ within, .visit fresh search⟩

namespace Search

variable {table : Table} {visited pending found : List State} {rounds : Nat}

theorem unique (search : table.Search visited pending rounds found) {otherRounds : Nat} {otherFound : List State}
    (other : table.Search visited pending otherRounds otherFound) : otherRounds = rounds ∧ otherFound = found := by
  induction search generalizing otherRounds with
  | done =>
    cases other
    exact ⟨rfl, rfl⟩
  | skip known _ ih =>
    cases other with
    | skip _ rest => exact (ih rest).imp_left (congrArg (· + 1))
    | visit fresh _ => exact absurd known fresh
  | visit fresh _ ih =>
    cases other with
    | skip known _ => exact absurd known fresh
    | visit _ rest => exact (ih rest).imp_left (congrArg (· + 1))

theorem nodup (search : table.Search visited pending rounds found) (distinct : visited.Nodup) : found.Nodup := by
  induction search with
  | done => exact distinct
  | skip _ _ ih => exact ih distinct
  | visit fresh _ ih => exact ih (List.nodup_cons.mpr ⟨fresh, distinct⟩)

end Search

/-- The search from a state ends by itself, after one round for each rule and one more at the latest. It has
visited then what a chain of rules leads to, and what is reported are the other states with rules, but for
terminal ones. -/
theorem reachabilityDefect?_exact (table : Table) (initial : State) :
    (∃ rounds ≤ 1 + table.rules.length, ∀ count found,
        table.Search [] [initial] count found ↔ count = rounds ∧ found = table.reachable initial) ∧
      (table.reachable initial).Nodup ∧
      (∀ state, state ∈ table.reachable initial ↔ table.Reaches initial state) ∧
      Checks (∀ rule ∈ table.rules, rule.start ∈ Textbook.terminalNames ∨ table.Reaches initial rule.start)
        (fun defect => ∃ found, Lists id
          (fun state => (∃ rule ∈ table.rules, rule.start = state) ∧ state ∉ Textbook.terminalNames ∧
            ¬ table.Reaches initial state) found ∧ defect = .unreachable found)
        (table.reachabilityDefect? initial) := by
  obtain ⟨rounds, within, search⟩ := search_of_explore (table.pending_after_reachable initial)
  refine ⟨⟨rounds, by omega, fun count found => ⟨search.unique, ?_⟩⟩, search.nodup .nil, fun _ => mem_reachable_iff,
    table.checks_unreachable initial⟩
  rintro ⟨rfl, rfl⟩
  exact search

/-- Three rules make the same state pending, so that a fourth round is taken. The states of a cycle that nothing
leads to are reported in order. -/
example :
    let table : Table := ⟨[⟨"q", '0', '0', .right, "p"⟩, ⟨"q", '1', '0', .right, "p"⟩, ⟨"q", '_', '0', .left, "p"⟩,
      ⟨"b", '0', '0', .left, "q"⟩, ⟨"a", '0', '0', .left, "b"⟩, ⟨"b", '1', '0', .left, "a"⟩]⟩
    (table.explore 3 [] ["q"]).2 ≠ [] ∧ table.reachable "q" = ["p", "q"] ∧
      table.reachabilityDefect? "q" = some (.unreachable ["a", "b"]) := by
  decide

end TapeMachine.Table
