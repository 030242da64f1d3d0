import TapeMachine.CommandLine
import TapeMachine.Proofs.PrintedTable
import TapeMachine.Proofs.StrictFault

namespace TapeMachine

namespace Table

theorem lines_below (above below : String) : lines (above ++ "\n" ++ below) = lines above ++ lines below := by
  have whole : (above ++ "\n" ++ below).toList = above.toList ++ '\n' :: below.toList := by simp
  rw [lines, whole, List.splitOn_append_cons_self, List.map_append]
  rfl

/-- Every line feed begins another line. -/
theorem length_lines (text : String) : (lines text).length = text.toList.count '\n' + 1 := by
  rw [lines, List.length_map]
  induction text.toList with
  | nil => rfl
  | cons c rest ih =>
    rw [List.splitOn_cons_eq_if_modifyHead, List.count_cons]
    split
    · rw [List.length_cons, ih]
    · rw [List.length_modifyHead, ih, Nat.add_zero]

theorem lines_joined {texts : List String} (nonempty : texts ≠ []) :
    lines ("\n".intercalate texts) = texts.flatMap lines := by
  induction texts with
  | nil => exact absurd rfl nonempty
  | cons text texts ih =>
    cases texts with
    | nil => simp
    | cons next texts =>
      rw [String.intercalate_cons_cons, lines_below, ih (List.cons_ne_nil next texts)]
      rfl

theorem FirstRefused.append_right {texts above : List String} {line : String} (found : FirstRefused texts above line)
    (others : List String) : FirstRefused (texts ++ others) above line :=
  ⟨found.place.trans (List.prefix_append ..), found.legible, found.refused⟩

theorem FirstRefused.append_left {texts above : List String} {line : String} (found : FirstRefused texts above line)
    {others : List String} (legible : ∀ other ∈ others, Legible other) :
    FirstRefused (others ++ texts) (others ++ above) line := by
  refine ⟨?_, ?_, found.refused⟩
  · rw [List.append_assoc]
    exact (List.prefix_append_right_inj others).mpr found.place
  · intro other member
    rcases List.mem_append.mp member with first | later
    · exact legible other first
    · exact found.legible other later

theorem ofText_below (above below : String) :
    (ofText (above ++ "\n" ++ below)).rules = (ofText above).rules ++ (ofText below).rules := by
  simp only [ofText_rules, lines_below, List.filterMap_append]

/-- What the strict mode makes of two texts, one below the other. -/
theorem ofTextStrict_below (above below : String) :
    ofTextStrict (above ++ "\n" ++ below) =
      match ofTextStrict above, ofTextStrict below with
      | .error fault, _ => .error fault
      | .ok first, .ok second => .ok ⟨first.rules ++ second.rules⟩
      | .ok _, .error fault => .error ⟨fault.line + (above.toList.count '\n' + 1), fault.content⟩ := by
  cases readAbove : ofTextStrict above with
  | error fault =>
    obtain ⟨upper, line, found, rfl⟩ := ofTextStrict_eq_error_iff.mp readAbove
    refine ofTextStrict_eq_error_iff.mpr ⟨upper, line, ?_, rfl⟩
    rw [lines_below]
    exact found.append_right (lines below)
  | ok first =>
    obtain ⟨legibleAbove, rfl⟩ := ofTextStrict_eq_ok_iff.mp readAbove
    cases readBelow : ofTextStrict below with
    | ok second =>
      obtain ⟨legibleBelow, rfl⟩ := ofTextStrict_eq_ok_iff.mp readBelow
      refine ofTextStrict_eq_ok_iff.mpr ⟨?_, congrArg Table.mk (ofText_below above below)⟩
      rw [Readable, lines_below, List.forall_mem_append]
      exact ⟨legibleAbove, legibleBelow⟩
    | error fault =>
      obtain ⟨upper, line, found, rfl⟩ := ofTextStrict_eq_error_iff.mp readBelow
      refine ofTextStrict_eq_error_iff.mpr ⟨lines above ++ upper, line, ?_, ?_⟩
      · rw [lines_below]
        exact found.append_left legibleAbove
      · rw [List.length_append, length_lines, Nat.add_comm _ upper.length, Nat.add_right_comm]

theorem readable_joined_iff {texts : List String} (nonempty : texts ≠ []) :
    Readable ("\n".intercalate texts) ↔ ∀ text ∈ texts, Readable text := by
  simp only [Readable, lines_joined nonempty, List.forall_mem_flatMap]

theorem ofText_joined {texts : List String} (nonempty : texts ≠ []) :
    ofText ("\n".intercalate texts) = ⟨texts.flatMap fun text => (ofText text).rules⟩ := by
  rw [ofText, lines_joined nonempty, List.filterMap_flatMap]
  rfl

/-- Texts that are joined are read one by one, in both modes. -/
theorem ofTextIn_joined_iff {texts : List String} (nonempty : texts ≠ []) {mode : Mode} {table : Table} :
    ofTextIn mode ("\n".intercalate texts) = .ok table ↔
      ∃ tables, List.Forall₂ (fun text part => ofTextIn mode text = .ok part) texts tables ∧
        table = ⟨tables.flatMap (·.rules)⟩ := by
  have parts (tables : List Table) :
      List.Forall₂ (fun text part => ofText text = part) texts tables ↔ texts.map ofText = tables := by
    rw [← List.forall₂_map_left_iff, List.forall₂_eq_eq_eq]
  simp only [ofTextIn_eq_ok_iff, List.forall₂_and_left, parts, readable_joined_iff nonempty, ofText_joined nonempty]
  constructor
  · rintro ⟨readable, rfl⟩
    exact ⟨texts.map ofText, ⟨fun text member strict => readable strict text member, rfl⟩, by rw [List.flatMap_map]⟩
  · rintro ⟨_, ⟨readable, rfl⟩, rfl⟩
    exact ⟨fun strict text member => readable text member strict, by rw [List.flatMap_map]⟩

end Table

namespace CommandLine

theorem Options.transitions_override (options : Options) (program : Program) :
    (options.override program).transitions = program.transitions := by
  unfold override
  cases options.initialState <;> rfl

theorem Options.source_of_rules {options : Options} (noProgram : options.program = none)
    (noBuiltin : options.builtin = none) (given : options.rules ≠ []) : options.source = .rules options.rules := by
  unfold source
  rw [noProgram, noBuiltin]
  cases rules : options.rules with
  | nil => exact absurd rules given
  | cons rule rules => rfl

/-- Of two texts, one below the other, each is read as if it stood alone, but for the numbers of the lower
lines. So rules among the arguments are read one by one. -/
theorem stacked_texts_read_apart :
    (∀ above below : String, (Table.ofText (above ++ "\n" ++ below)).rules =
        (Table.ofText above).rules ++ (Table.ofText below).rules) ∧
      (∀ above below : String, Table.ofTextIn .strict (above ++ "\n" ++ below) =
        match Table.ofTextIn .strict above, Table.ofTextIn .strict below with
        | .error fault, _ => .error fault
        | .ok first, .ok second => .ok ⟨first.rules ++ second.rules⟩
        | .ok _, .error fault => .error ⟨fault.line + (above.toList.count '\n' + 1), fault.content⟩) ∧
      ∀ (options : Options) (content : Content), options.program = none → options.builtin = none →
        options.rules ≠ [] → ∃ program, options.source.program content = .ok program ∧
          (Table.ofText (options.override program).transitions).rules =
            options.rules.flatMap (fun argument => (Table.ofText argument).rules) ∧
          ∀ mode table, Table.ofTextIn mode (options.override program).transitions = .ok table ↔
            ∃ parts, List.Forall₂ (fun argument part => Table.ofTextIn mode argument = .ok part) options.rules parts ∧
              table = ⟨parts.flatMap (·.rules)⟩ := by
  refine ⟨Table.ofText_below, Table.ofTextStrict_below, ?arguments⟩
  case arguments =>
    intro options content noProgram noBuiltin given
    rw [options.source_of_rules noProgram noBuiltin given]
    refine ⟨_, rfl, ?_⟩
    simp only [Options.transitions_override]
    exact ⟨congrArg Table.rules (Table.ofText_joined given), fun mode table => Table.ofTextIn_joined_iff given⟩

/-- The first argument has a white line in its midst and the second one is empty. -/
theorem stacked_texts_read_apart_arguments :
    let options : Options := {
      program := none, builtin := none, rules := ["Q 0 1 R P\n \np 1 _ l q", "", "\tq  1 1 R halt-accept\r"]
      tape := some "01", initialState := none, maxSteps := 5, strict := true, debug := false, json := false, list := false }
    options.program = none ∧ options.builtin = none ∧ options.rules ≠ [] ∧
      ∃ program, options.source.program (.ok ByteArray.empty) = .ok program ∧
        Table.ofTextIn .strict (options.override program).transitions =
          .ok ⟨[⟨"q", '0', '1', .right, "p"⟩, ⟨"p", '1', '_', .left, "q"⟩, ⟨"q", '1', '1', .right, "halt-accept"⟩]⟩ := by
  intro options
  obtain ⟨_, _, arguments⟩ := stacked_texts_read_apart
  obtain ⟨program, made, _, read⟩ := arguments options (.ok ByteArray.empty) rfl rfl (by decide)
  refine ⟨rfl, rfl, by decide, program, made, (read .strict _).mpr ?_⟩
  refine ⟨[⟨[⟨"q", '0', '1', .right, "p"⟩, ⟨"p", '1', '_', .left, "q"⟩]⟩, ⟨[]⟩,
    ⟨[⟨"q", '1', '1', .right, "halt-accept"⟩]⟩], ?_, rfl⟩
  exact .cons (by decide) (.cons (by decide) (.cons (by decide) .nil))

end CommandLine

end TapeMachine
