import TapeMachine.Proofs.Findings
import TapeMachine.Proofs.Textbook

namespace TapeMachine

open Textbook

theorem Direction.offset?_eq_none_iff {move : Direction} : move.offset? = none ↔ ¬ (move = .left ∨ move = .right) := by
  cases move <;> simp [Direction.offset?]

namespace Table

/-- No two rules have the same state and the same symbol. -/
def Unambiguous (table : Table) : Prop :=
  table.rules.Pairwise fun rule other => ¬ (rule.start = other.start ∧ rule.read = other.read)

def Directed (table : Table) : Prop := ∀ rule ∈ table.rules, rule.move = .left ∨ rule.move = .right

/-- A computation from `initial` has ended already, or some rule is for its state. -/
def StartsFrom (table : Table) (initial : State) : Prop :=
  initial ∈ terminalNames ∨ ∃ rule ∈ table.rules, rule.start = initial

def RestsWhenTerminal (table : Table) : Prop := ∀ rule ∈ table.rules, rule.start ∉ terminalNames

def Connected (table : Table) (initial : State) : Prop := ∀ rule ∈ table.rules, table.Reaches initial rule.start

/-- The first condition in this order that a table fails, with everything that fails it. -/
inductive FirstFailure (table : Table) (initial : State) : Defect → Prop
  | ambiguous {found} : ¬ table.Unambiguous → Lists Shadowing.index table.Shadows found →
      FirstFailure table initial (.ambiguous found)
  | invalidDirections {found} : table.Unambiguous → ¬ table.Directed →
      Lists NumberedRule.index
        (fun item => table.Holds item ∧ ¬ (item.rule.move = .left ∨ item.rule.move = .right)) found →
      FirstFailure table initial (.invalidDirections found)
  | invalidStart : table.Unambiguous → table.Directed → ¬ table.StartsFrom initial →
      FirstFailure table initial (.invalidStart initial)
  | leavesTerminal {found} : table.Unambiguous → table.Directed → table.StartsFrom initial →
      ¬ table.RestsWhenTerminal →
      Lists NumberedRule.index (fun item => table.Holds item ∧ item.rule.start ∈ terminalNames) found →
      FirstFailure table initial (.leavesTerminal found)
  | unreachable {found} : table.Unambiguous → table.Directed → table.StartsFrom initial →
      table.RestsWhenTerminal → ¬ table.Connected initial →
      Lists id (fun state => (∃ rule ∈ table.rules, rule.start = state) ∧ ¬ table.Reaches initial state) found →
      FirstFailure table initial (.unreachable found)

/-- What one check answers: nothing if its condition holds, and else a finding. -/
inductive Checks (condition : Prop) (finding : Defect → Prop) : Option Defect → Prop
  | passes : condition → Checks condition finding none
  | fails {defect} : ¬ condition → finding defect → Checks condition finding (some defect)

theorem Checks.of_lists {Item Place : Type} [LT Place] {place : Item → Place} {property : Item → Prop}
    {found : List Item} (lists : Lists place property found) {condition : Prop}
    (clean : condition ↔ ∀ item, ¬ property item) (report : List Item → Defect) :
    Checks condition (fun defect => ∃ found, Lists place property found ∧ defect = report found)
      (if found.isEmpty then none else some (report found)) := by
  split
  · rename_i empty
    exact .passes (clean.mpr (lists.isEmpty_iff.mp empty))
  · rename_i nonempty
    exact .fails (fun holds => nonempty (lists.isEmpty_iff.mpr (clean.mp holds))) ⟨found, lists, rfl⟩

theorem Checks.congr {condition other : Prop} {finding shown : Defect → Prop} {answer : Option Defect}
    (checks : Checks condition finding answer) (same : condition ↔ other) (shows : ∀ defect, finding defect → shown defect) :
    Checks other shown answer := by
  cases checks with
  | passes holds => exact .passes (same.mp holds)
  | fails violated found => exact .fails (fun holds => violated (same.mpr holds)) (shows _ found)

theorem unambiguous_iff {table : Table} : table.Unambiguous ↔ ∀ shadowing, ¬ table.Shadows shadowing := by
  unfold Unambiguous
  rw [List.pairwise_iff_getElem]
  constructor
  · rintro distinct shadowing ⟨atIndex, behind, other, isFirst⟩
    obtain ⟨within, isRule⟩ := List.getElem?_eq_some_iff.mp atIndex
    obtain ⟨before, isOther⟩ := List.getElem?_eq_some_iff.mp isFirst.atIndex
    have fits := isFirst.fits
    rw [← isOther, ← isRule] at fits
    exact distinct _ _ before within behind fits
  · intro unshadowed index later within beyond behind same
    obtain ⟨first, other, upTo, isFirst⟩ := exists_firstMatch (List.getElem?_eq_getElem within) same
    exact unshadowed ⟨later, first, table.rules[later]⟩
      ⟨List.getElem?_eq_getElem beyond, by dsimp only; omega, other, isFirst⟩

/-- Where no two rules compete, whatever rule fits is the first that does. -/
theorem Unambiguous.firstMatch {table : Table} (unambiguous : table.Unambiguous) {state : State} {symbol : Symbol}
    {index : Nat} {rule : Rule} (atIndex : table.rules[index]? = some rule) (fits : rule.Fits state symbol) :
    table.FirstMatch state symbol index rule := by
  obtain ⟨first, other, upTo, isFirst⟩ := exists_firstMatch atIndex fits
  have notBehind : ¬ first < index := by
    intro behind
    refine unambiguous_iff.mp unambiguous ⟨index, first, rule⟩ ⟨atIndex, behind, other, ?_⟩
    rw [fits.1, fits.2]
    exact isFirst
  obtain rfl : first = index := by omega
  obtain rfl : other = rule := Option.some.inj (isFirst.atIndex.symm.trans atIndex)
  exact isFirst

theorem forall_holds_iff {table : Table} {property : Rule → Prop} :
    (∀ item, ¬ (table.Holds item ∧ ¬ property item.rule)) ↔ ∀ rule ∈ table.rules, property rule := by
  constructor
  · intro every rule member
    obtain ⟨index, atIndex⟩ := List.mem_iff_getElem?.mp member
    by_contra violated
    exact every ⟨index, rule⟩ ⟨atIndex, violated⟩
  · rintro every item ⟨holds, violated⟩
    exact violated (every item.rule (List.mem_of_getElem? holds))

variable (table : Table) (initial : State)

theorem checks_ambiguity : Checks table.Unambiguous
    (fun defect => ∃ found, Lists Shadowing.index table.Shadows found ∧ defect = .ambiguous found) table.ambiguity? :=
  .of_lists table.lists_shadowings unambiguous_iff Defect.ambiguous

theorem checks_direction : Checks table.Directed
    (fun defect => ∃ found, Lists NumberedRule.index
      (fun item => table.Holds item ∧ ¬ (item.rule.move = .left ∨ item.rule.move = .right)) found ∧
        defect = .invalidDirections found) table.directionDefect? := by
  refine .of_lists ((table.lists_filter_numbered _).congr fun item => ?_) forall_holds_iff.symm Defect.invalidDirections
  rw [Option.isNone_iff_eq_none, Direction.offset?_eq_none_iff]

theorem checks_start : Checks (table.StartsFrom initial) (· = .invalidStart initial) (table.startDefect? initial) := by
  have stated : (initial.isTerminal || table.rules.any (·.start = initial)) = true ↔ table.StartsFrom initial := by
    simp [StartsFrom, State.isTerminal_iff]
  unfold startDefect?
  split
  · rename_i starts
    exact .passes (stated.mp starts)
  · rename_i fails
    exact .fails (fun starts => fails (stated.mpr starts)) rfl

theorem checks_terminal : Checks table.RestsWhenTerminal
    (fun defect => ∃ found, Lists NumberedRule.index
      (fun item => table.Holds item ∧ item.rule.start ∈ terminalNames) found ∧ defect = .leavesTerminal found)
    table.terminalDefect? := by
  refine .of_lists ((table.lists_filter_numbered _).congr fun item => ?_) ?_ Defect.leavesTerminal
  · rw [State.isTerminal_iff]
  · have clean : _ ↔ table.RestsWhenTerminal := forall_holds_iff
    simpa only [not_not] using clean.symm

theorem checks_unreachable : Checks
    (∀ rule ∈ table.rules, rule.start ∈ terminalNames ∨ table.Reaches initial rule.start)
    (fun defect => ∃ found, Lists id
      (fun state => (∃ rule ∈ table.rules, rule.start = state) ∧ state ∉ terminalNames ∧ ¬ table.Reaches initial state)
      found ∧ defect = .unreachable found) (table.reachabilityDefect? initial) := by
  refine .of_lists ((table.lists_unreachable initial).congr fun state => ?_) ?_ Defect.unreachable
  · rw [← Bool.not_eq_true, State.isTerminal_iff]
  · constructor
    · rintro excused state ⟨⟨rule, member, rfl⟩, running, unreached⟩
      exact (excused rule member).elim running unreached
    · intro clean rule member
      by_contra offends
      rw [not_or] at offends
      exact clean rule.start ⟨⟨rule, member, rfl⟩, offends⟩

/-- Where no rule leaves a terminal state, none is excused. -/
theorem checks_reachability (rests : table.RestsWhenTerminal) : Checks (table.Connected initial)
    (fun defect => ∃ found, Lists id
      (fun state => (∃ rule ∈ table.rules, rule.start = state) ∧ ¬ table.Reaches initial state) found ∧
        defect = .unreachable found) (table.reachabilityDefect? initial) := by
  refine (table.checks_unreachable initial).congr ?_ ?_
  · exact forall₂_congr fun rule member => or_iff_right (rests rule member)
  · rintro defect ⟨found, lists, rfl⟩
    refine ⟨found, lists.congr fun state => ?_, rfl⟩
    refine and_congr_right ?_
    rintro ⟨rule, member, rfl⟩
    exact and_iff_right (rests rule member)

/-- The analysis goes through the conditions in order and stops at the first that fails. -/
theorem sound_or_firstFailure :
    (table.defect? initial = none ∧ table.Unambiguous ∧ table.Directed ∧ table.StartsFrom initial ∧
      table.RestsWhenTerminal ∧ table.Connected initial) ∨
    ∃ defect, table.defect? initial = some defect ∧ FirstFailure table initial defect := by
  have ambiguity := table.checks_ambiguity
  have direction := table.checks_direction
  have start := table.checks_start initial
  have terminal := table.checks_terminal
  unfold defect?
  generalize table.ambiguity? = answer at ambiguity ⊢
  cases ambiguity with
  | fails fails finding =>
    obtain ⟨found, lists, rfl⟩ := finding
    exact Or.inr ⟨_, rfl, .ambiguous fails lists⟩
  | passes unambiguous =>
    generalize table.directionDefect? = answer at direction ⊢
    cases direction with
    | fails fails finding =>
      obtain ⟨found, lists, rfl⟩ := finding
      exact Or.inr ⟨_, rfl, .invalidDirections unambiguous fails lists⟩
    | passes directed =>
      generalize table.startDefect? initial = answer at start ⊢
      cases start with
      | fails fails finding =>
        subst finding
        exact Or.inr ⟨_, rfl, .invalidStart unambiguous directed fails⟩
      | passes starts =>
        generalize table.terminalDefect? = answer at terminal ⊢
        cases terminal with
        | fails fails finding =>
          obtain ⟨found, lists, rfl⟩ := finding
          exact Or.inr ⟨_, rfl, .leavesTerminal unambiguous directed starts fails lists⟩
        | passes rests =>
          have reachability := table.checks_reachability initial rests
          generalize table.reachabilityDefect? initial = answer at reachability ⊢
          cases reachability with
          | fails fails finding =>
            obtain ⟨found, lists, rfl⟩ := finding
            exact Or.inr ⟨_, rfl, .unreachable unambiguous directed starts rests fails lists⟩
          | passes connected => exact Or.inl ⟨rfl, unambiguous, directed, starts, rests, connected⟩

theorem FirstFailure.unsound {table : Table} {initial : State} {defect : Defect}
    (failure : FirstFailure table initial defect) :
    ¬ (table.Unambiguous ∧ table.Directed ∧ table.StartsFrom initial ∧ table.RestsWhenTerminal ∧
      table.Connected initial) := by
  rintro ⟨unambiguous, directed, starts, rests, connected⟩
  cases failure with
  | ambiguous fails => exact fails unambiguous
  | invalidDirections _ fails => exact fails directed
  | invalidStart _ _ fails => exact fails starts
  | leavesTerminal _ _ _ fails => exact fails rests
  | unreachable _ _ _ _ fails => exact fails connected

theorem defect?_eq_none_iff : table.defect? initial = none ↔
    table.Unambiguous ∧ table.Directed ∧ table.StartsFrom initial ∧ table.RestsWhenTerminal ∧
      table.Connected initial := by
  rcases table.sound_or_firstFailure initial with ⟨accepted, sound⟩ | ⟨defect, refused, failure⟩
  · exact ⟨fun _ => sound, fun _ => accepted⟩
  · rw [refused]
    exact ⟨nofun, fun sound => absurd sound failure.unsound⟩

/-- The analysis accepts a table exactly if the five conditions hold. Otherwise it names the first that
does not, and lists all that offends against it. -/
theorem defect?_verdict :
    (table.defect? initial = none ↔
      table.Unambiguous ∧ table.Directed ∧ table.StartsFrom initial ∧ table.RestsWhenTerminal ∧
        table.Connected initial) ∧
    ∀ defect, table.defect? initial = some defect → FirstFailure table initial defect := by
  refine ⟨table.defect?_eq_none_iff initial, fun defect refused => ?_⟩
  rcases table.sound_or_firstFailure initial with ⟨accepted, _⟩ | ⟨other, names, failure⟩
  · rw [accepted] at refused
    cases refused
  · cases Option.some.inj (names.symm.trans refused)
    exact failure

/-- A terminal state on the way does not cut the way off, but a rule that leaves it is the defect. -/
example :
    let table : Table := ⟨[⟨"q", '0', '0', .right, "halt-accept"⟩, ⟨"halt-accept", '0', '0', .left, "p"⟩,
      ⟨"p", '0', '0', .left, "q"⟩]⟩
    table.reachable "q" = ["p", "halt-accept", "q"] ∧
      table.defect? "q" = some (.leavesTerminal [⟨1, ⟨"halt-accept", '0', '0', .left, "p"⟩⟩]) := by
  decide

end Table

end TapeMachine
