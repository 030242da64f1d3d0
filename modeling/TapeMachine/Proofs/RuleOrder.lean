import TapeMachine.Proofs.Directed
import TapeMachine.Proofs.Renumbering

namespace TapeMachine

namespace Table

variable {table other : Table} (same : other.rules.Perm table.rules)
include same

theorem unambiguous_of_perm (unambiguous : table.Unambiguous) : other.Unambiguous := by
  refine (same.pairwise_iff ?_).mpr unambiguous
  intro rule later distinct equal
  exact distinct ⟨equal.1.symm, equal.2.symm⟩

theorem leads_eq_of_perm : other.Leads = table.Leads := by
  funext state next
  unfold Leads
  simp only [same.mem_iff]

theorem defect?_eq_none_of_perm {initial : State} (sound : table.defect? initial = none) :
    other.defect? initial = none := by
  obtain ⟨unambiguous, directed, starts, rests, connected⟩ := (table.defect?_eq_none_iff initial).mp sound
  refine (other.defect?_eq_none_iff initial).mpr ⟨unambiguous_of_perm same unambiguous, ?_, ?_, ?_, ?_⟩
  · exact fun rule member => directed rule (same.mem_iff.mp member)
  · refine starts.imp_right fun ⟨rule, member, atStart⟩ => ?_
    exact ⟨rule, same.mem_iff.mpr member, atStart⟩
  · exact fun rule member => rests rule (same.mem_iff.mp member)
  · intro rule member
    unfold Reaches
    rw [leads_eq_of_perm same]
    exact connected rule (same.mem_iff.mp member)

omit same in
/-- Where another table has the rule at a position of this one. -/
def placeIn (table other : Table) (index : Nat) : Nat :=
  (table.rules[index]?.map other.rules.idxOf).getD index

theorem renumbering_of_perm (unambiguous : table.Unambiguous) :
    table.Renumbering other (table.placeIn other) fun _ => True := by
  refine ⟨fun _ _ _ => trivial, ?_, ?_⟩
  · intro state symbol index rule _ _ first
    have place : table.placeIn other index = other.rules.idxOf rule := by
      rw [placeIn, first.atIndex]
      rfl
    have member : rule ∈ other.rules := same.mem_iff.mpr (List.mem_of_getElem? first.atIndex)
    rw [place]
    exact (unambiguous_of_perm same unambiguous).firstMatch (List.getElem?_idxOf member) first.fits
  · rintro state symbol _ _ unfit ⟨rule, member, fits⟩
    exact unfit ⟨rule, same.mem_iff.mp member, fits⟩

end Table

theorem Reply.renumber_eq_self {reply : Reply} (rename : Nat → Nat)
    (placeless : ∀ index token, reply ≠ .stepped (.aborted (.invalidDirection index token))) :
    reply.renumber rename = reply := by
  cases reply with
  | stepped step =>
    cases step with
    | aborted reason =>
      cases reason with
      | invalidDirection index token => exact absurd rfl (placeless index token)
      | undefinedTransition => rfl
    | _ => rfl
  | _ => rfl

namespace Machine

/-- Where every rule has a direction, no answer tells the position of a rule. -/
theorem replies_renumber_of_directed {machine : Machine} (directed : machine.table.Directed) (rename : Nat → Nat)
    (operations : List Operation) :
    (machine.replies operations).map (Reply.renumber rename) = machine.replies operations := by
  refine (List.map_congr_left fun reply member => ?_).trans (List.map_id _)
  refine Reply.renumber_eq_self rename ?_
  rintro index token rfl
  exact invalidDirection_not_mem_replies directed operations index token member

/-- The order of the rules does not matter to a table without defects: it stays without defects, and
whatever is done with its machines, they answer the same and go the same way by the same rules. -/
theorem rule_order_irrelevant {table other : Table} {initial : State} (named : initial ≠ "")
    (sound : table.defect? initial = none) (same : other.rules.Perm table.rules) :
    other.defect? initial = none ∧
      ∀ input, ∃ machine twin, ofTable? table input (some initial) = some machine ∧
        ofTable? other input (some initial) = some twin ∧
        ∀ operations, twin.replies operations = machine.replies operations ∧
          let used := machine.operateAll operations
          let twinUsed := twin.operateAll operations
          twinUsed.state = used.state ∧ twinUsed.head = used.head ∧ twinUsed.tape = used.tape ∧
            twinUsed.abortedFrom = used.abortedFrom ∧
            ∃ rules : List Rule, used.history.map used.table.get? = rules.map some ∧
              twinUsed.history.map twinUsed.table.get? = rules.map some := by
  refine ⟨Table.defect?_eq_none_of_perm same sound, fun input => ?_⟩
  obtain ⟨unambiguous, directed, _⟩ := (table.defect?_eq_none_iff initial).mp sound
  have renumbering := Table.renumbering_of_perm same unambiguous
  have tracked : Tracked table other (table.placeIn other) (fun _ => True) (start table input initial) :=
    .start trivial input
  refine ⟨_, _, ofTable?_of_named named table input, ofTable?_of_named named other input, fun operations => ?_⟩
  obtain ⟨trackedUsed, sameReplies, sameUsed⟩ := tracked.operateAll_renumber renumbering operations
  rw [replies_renumber_of_directed directed] at sameReplies
  refine ⟨sameReplies, ?_⟩
  intro used twinUsed
  have isRenumbered : twinUsed = used.renumber other (table.placeIn other) := sameUsed
  rw [isRenumbered, trackedUsed.onTable]
  exact ⟨rfl, rfl, rfl, rfl, trackedUsed.exists_rules⟩

/-- Two rules change places, and an abort is undone on the way. -/
theorem rule_order_irrelevant_swapped :
    let first : Rule := ⟨"q", '0', '1', .right, "p"⟩
    let second : Rule := ⟨"p", '0', '_', .left, "q"⟩
    let operations : List Operation := [.step, .step, .step, .back, .back, .step]
    ("q" ≠ "" ∧ Table.defect? ⟨[first, second]⟩ "q" = none ∧ [second, first].Perm [first, second]) ∧
      Table.defect? ⟨[second, first]⟩ "q" = none ∧
      ∃ machine twin, ofTable? ⟨[first, second]⟩ "00" (some "q") = some machine ∧
        ofTable? ⟨[second, first]⟩ "00" (some "q") = some twin ∧
        twin.replies operations = machine.replies operations ∧
        (machine.operateAll operations).history = [0, 1] ∧ (twin.operateAll operations).history = [1, 0] := by
  intro first second operations
  have named : "q" ≠ "" := by decide
  have sound : Table.defect? ⟨[first, second]⟩ "q" = none := by decide
  have swapped : (Table.mk [second, first]).rules.Perm (Table.mk [first, second]).rules := .swap first second []
  obtain ⟨soundOther, alike⟩ := rule_order_irrelevant named sound swapped
  obtain ⟨machine, twin, built, builtTwin, every⟩ := alike "00"
  refine ⟨⟨named, sound, swapped⟩, soundOther, machine, twin, built, builtTwin, (every operations).1, ?_, ?_⟩
  · cases Option.some.inj (built.symm.trans (ofTable?_of_named named _ "00"))
    decide
  · cases Option.some.inj (builtTwin.symm.trans (ofTable?_of_named named _ "00"))
    decide

end Machine

end TapeMachine
