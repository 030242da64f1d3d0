import TapeMachine.Proofs.Derivation
import TapeMachine.Proofs.Directed

namespace TapeMachine

/-- Looked up by its state and its symbol, the rule is not what is found. -/
structure Table.PassedOver (table : Table) (item : Shadowing) : Prop where
  atIndex : table.get? item.index = some item.rule
  found : ∃ other, table.find? item.rule.start item.rule.read = some (item.first, other)
  elsewhere : item.first ≠ item.index

namespace Table

variable {table : Table} {item : Shadowing}

theorem shadows_iff_passedOver : table.Shadows item ↔ table.PassedOver item := by
  constructor
  · rintro ⟨atIndex, behind, other, isFirst⟩
    exact ⟨atIndex, ⟨other, find?_eq_some_iff.mpr isFirst⟩, behind.ne⟩
  · rintro ⟨atIndex, ⟨other, found⟩, elsewhere⟩
    have isFirst := find?_eq_some_iff.mp found
    have upTo : item.first ≤ item.index := by
      by_contra beyond
      exact isFirst.lowest item.index item.rule (Nat.lt_of_not_le beyond) atIndex ⟨rfl, rfl⟩
    exact ⟨atIndex, Nat.lt_of_le_of_ne upTo elsewhere, other, isFirst⟩

/-- No rule is passed over exactly if the lookup for each rule answers with that rule. -/
theorem forall_find?_iff : (∀ index rule, table.get? index = some rule →
    table.find? rule.start rule.read = some (index, rule)) ↔ ∀ item, ¬ table.PassedOver item := by
  constructor
  · rintro finds item ⟨atIndex, ⟨other, found⟩, elsewhere⟩
    rw [finds item.index item.rule atIndex] at found
    exact elsewhere (Prod.mk.inj (Option.some.inj found)).1.symm
  · intro none index rule atIndex
    obtain ⟨first, other, _, isFirst⟩ := exists_firstMatch atIndex ⟨rfl, rfl⟩
    have found := find?_eq_some_iff.mpr isFirst
    by_cases same : first = index
    · subst same
      rw [found, Option.some.inj (isFirst.atIndex.symm.trans atIndex)]
    · exact absurd ⟨atIndex, ⟨other, found⟩, same⟩ (none ⟨index, first, rule⟩)

theorem PassedOver.behind (passed : table.PassedOver item) : item.first < item.index :=
  (shadows_iff_passedOver.mpr passed).behind

theorem PassedOver.not_find? (passed : table.PassedOver item) {state : State} {symbol : Symbol} {rule : Rule} :
    table.find? state symbol ≠ some (item.index, rule) := by
  intro found
  have isFirst := find?_eq_some_iff.mp found
  obtain rfl : rule = item.rule := Option.some.inj (isFirst.atIndex.symm.trans passed.atIndex)
  obtain ⟨rfl, rfl⟩ := isFirst.fits
  obtain ⟨other, first⟩ := passed.found
  rw [found] at first
  exact passed.elsewhere (Prod.mk.inj (Option.some.inj first)).1.symm

end Table

namespace Machine

variable {machine : Machine} {item : Shadowing}

theorem step_ne_invalidDirection_of_passedOver (passed : machine.table.PassedOver item) (token : String) :
    machine.step.1 ≠ .aborted (.invalidDirection item.index token) := by
  intro answered
  generalize named : item.index = index at answered
  cases acts_of_aborted answered with
  | invalid _ first _ =>
    subst named
    exact passed.not_find? (Table.find?_eq_some_iff.mpr first)

theorem Reachable.not_mem_history (reachable : Reachable machine) (passed : machine.table.PassedOver item) :
    item.index ∉ machine.history := by
  intro member
  obtain ⟨rules, derivation⟩ := reachable.derivation
  obtain ⟨rule, applicable⟩ := derivation.applicable item.index member
  exact passed.not_find? applicable.found

/-- The rules that are reported as shadowed are those that the lookup passes over, each with the rule that is
found in its place. Whatever is done with a machine on the table, it applies none of them, and none is the
reason of an abort. -/
theorem shadowed_rules_never_fire (table : Table) :
    Table.Checks (∀ index rule, table.get? index = some rule → table.find? rule.start rule.read = some (index, rule))
      (fun defect => ∃ found, Lists Shadowing.index table.PassedOver found ∧ defect = .ambiguous found ∧
        defect.message = "Ambiguous transitions for the same state and symbol: " ++
          Text.quotedList (found.map fun item => s!"#{item.index} shadowed by #{item.first}: {item.rule.text}"))
      table.ambiguity? ∧
    ∀ item, table.PassedOver item → item.first < item.index ∧
      ∀ input initial machine, ofTable? table input initial = some machine → ∀ operations,
        item.index ∉ (machine.operateAll operations).history ∧
          ∀ token, .stepped (.aborted (.invalidDirection item.index token)) ∉ machine.replies operations := by
  have listed := table.lists_shadowings.congr fun _ => Table.shadows_iff_passedOver
  constructor
  · refine (Table.Checks.of_lists listed Table.forall_find?_iff Defect.ambiguous).congr Iff.rfl ?_
    rintro defect ⟨found, lists, rfl⟩
    exact ⟨found, lists, rfl, rfl⟩
  · intro item passed
    refine ⟨passed.behind, ?_⟩
    intro input initial machine built operations
    have onTable : machine.table = table := by
      obtain ⟨state, _, rfl⟩ := ofTable?_eq_some_iff.mp built
      rfl
    constructor
    · have used : Reachable (machine.operateAll operations) := (Reachable.ofTable built).operateAll operations
      refine used.not_mem_history ?_
      rwa [table_operateAll, onTable]
    · intro token
      refine aborted_not_mem_replies (fun other same => ?_) operations
      refine step_ne_invalidDirection_of_passedOver ?_ token
      rwa [same, onTable]

/-- Of three rules for one state and one symbol, the last two point at the first. The rule that ends the run
for want of a direction is another. -/
theorem shadowed_rules_never_fire_threefold :
    let table : Table := ⟨[⟨"q", '0', '1', .right, "q"⟩, ⟨"q", '0', '0', .unknown "x", "p"⟩,
      ⟨"q", '_', '0', .unknown "s", "q"⟩, ⟨"q", '0', '0', .left, "q"⟩]⟩
    let machine := start table "00" "q"
    let operations : List Operation := [.step, .back, .runLimit 2, .step]
    let item : Shadowing := ⟨3, 0, ⟨"q", '0', '0', .left, "q"⟩⟩
    (table.PassedOver item ∧ ofTable? table "00" none = some machine) ∧
      table.ambiguity? = some (.ambiguous [⟨1, 0, ⟨"q", '0', '0', .unknown "x", "p"⟩⟩, item]) ∧
      (machine.operateAll operations).history = [0, 0] ∧
      .stepped (.aborted (.invalidDirection 2 "s")) ∈ machine.replies operations ∧
      item.first < item.index ∧ item.index ∉ (machine.operateAll operations).history ∧
      ∀ token, .stepped (.aborted (.invalidDirection item.index token)) ∉ machine.replies operations := by
  intro table machine operations item
  have passed : table.PassedOver item := ⟨rfl, ⟨⟨"q", '0', '1', .right, "q"⟩, by decide⟩, by decide⟩
  have built : ofTable? table "00" none = some machine := rfl
  obtain ⟨behind, never⟩ := (shadowed_rules_never_fire table).2 item passed
  obtain ⟨unused, notReason⟩ := never "00" none machine built operations
  refine ⟨⟨passed, built⟩, by decide, by decide, ?_, behind, unused, notReason⟩
  have answered : (machine.operateAll [.step, .back, .runLimit 2]).step.1 = .aborted (.invalidDirection 2 "s") := by
    decide
  simp [operations, replies, reply, ← answered, Machine.operateAll]

end Machine

end TapeMachine
