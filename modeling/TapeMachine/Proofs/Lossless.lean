import TapeMachine.Proofs.StepMembers

namespace TapeMachine

open Json

/-- What is written as JSON comes back unchanged when it is read, a step also with its members in another
order. Only what stands for something else in the text is given up: a token that names a movement, and an
initial state without a name. -/
theorem json_lossless :
    (∀ rule : Rule, rule.move.Recognized → decodeText Rule.decode rule.json.text = .ok rule) ∧
      (∀ table : Table, (∀ rule ∈ table.rules, rule.move.Recognized) →
        decodeText Table.decode table.json.text = .ok table) ∧
      (∀ abort : Abort, abort.Fits → decodeText Abort.decode abort.json.text = .ok abort) ∧
      (∀ (step : Step) (members : List (String × Value)), step.Fits → members.Perm step.members →
        decodeText Step.decode (Value.object members).text = .ok step) ∧
      ∀ program : Program, Program.ofJson program.json.text =
        .ok { program with initialState := program.initialState.filter (· ≠ "") } := by
  refine ⟨?rule, ?table, ?abort, ?step, ?program⟩
  case rule =>
    intro rule recognized
    rw [Value.decodeText_text, Rule.decode_json recognized]
  case table =>
    intro table recognized
    rw [Value.decodeText_text, Table.decode_json recognized]
  case abort =>
    intro abort fits
    rw [Value.decodeText_text, Abort.decode_json fits]
  case step =>
    intro step members fits order
    rw [Value.decodeText_text, Step.decode_members fits order]
  case program =>
    intro program
    rw [Program.ofJson, Value.decodeText_text, Program.decode_json]

/-- Here the outcome stands in the middle, the head is as far to the left as it can be, and the texts
hold a quotation mark, a control character and a character beyond 16 bits. -/
theorem json_lossless_shuffled :
    let rule : Rule := ⟨"q\"0", '\x01', '😀', .unknown "stay", "halt-accept"⟩
    let step : Step := .applied ['\\', '_'] (-2 ^ 63) false rule
    let members : List (String × Value) :=
      [("is_terminal", .boolean false), ("transition", rule.json), ("outcome", .string "applied"),
        ("tape", .list (['\\', '_'].map .symbol)), ("head", .integer (-2 ^ 63))]
    decodeText Rule.decode rule.json.text = .ok rule ∧
      decodeText Table.decode (Table.json ⟨[rule]⟩).text = .ok ⟨[rule]⟩ ∧
      decodeText Abort.decode (Abort.invalidDirection (2 ^ 64 - 1) "l").json.text =
        .ok (.invalidDirection (2 ^ 64 - 1) "l") ∧
      step.Fits ∧ members.Perm step.members ∧ decodeText Step.decode (Value.object members).text = .ok step ∧
      Program.ofJson (Program.json ⟨"", "01", "q\n", some "", .strict⟩).text =
        .ok ⟨"", "01", "q\n", none, .strict⟩ := by
  intro rule step members
  obtain ⟨rules, tables, aborts, steps, programs⟩ := json_lossless
  have recognized : rule.move.Recognized := by constructor <;> decide
  have fits : step.Fits := ⟨by constructor <;> decide, recognized⟩
  -- Here the last two members of the step stand in front of the others.
  have turned : (members.take 2 ++ members.drop 2).Perm (members.drop 2 ++ members.take 2) := List.perm_append_comm
  have order : members.Perm step.members := turned
  exact ⟨rules rule recognized, tables ⟨[rule]⟩ (List.forall_mem_singleton.mpr recognized),
    aborts _ (by change _ < _; decide), fits, order, steps step members fits order, programs _⟩

end TapeMachine
