import TapeMachine.Proofs.PrintedRecord
import TapeMachine.Proofs.StackedTexts

namespace TapeMachine

/-- A text comes back whole from the bytes that hold it. -/
theorem Content.text_toUTF8 (text : String) : Content.text (.ok text.toUTF8) = .ok text := by
  have decoded : String.fromUTF8? text.toUTF8 = some text := dif_pos text.isValidUTF8
  simp only [Content.text, decoded, bind, Except.bind]
  rfl

namespace Table

theorem lines_ne_nil (text : String) : lines text ≠ [] := by
  have count := length_lines text
  intro none
  rw [none, List.length_nil] at count
  omega

/-- The lines of a text joined again are the text: a carriage return or a line feed at the end stays. -/
theorem intercalate_lines (text : String) : "\n".intercalate (lines text) = text := by
  have joined : "\n".toList.intercalate (text.toList.splitOn '\n') = text.toList := List.intercalate_splitOn '\n'
  apply String.toList_injective
  rw [String.toList_intercalate, lines, List.map_map]
  simpa only [Function.comp_def, String.toList_ofList, List.map_id'] using joined

end Table

namespace Program

/-- The program of some rules alone can be written down, whatever characters they hold. -/
theorem ofJson_ofTransitions (transitions : String) :
    ofJson (ofTransitions transitions).json.text = .ok (ofTransitions transitions) := by
  rw [ofJson, Json.Value.decodeText_text, decode_json]
  rfl

/-- The name of a program is for its reader alone. -/
theorem machine_named (program : Program) (name : String) : { program with name }.machine = program.machine := rfl

end Program

namespace CommandLine

/-- The options that take the program from `source` and leave all else as it is. -/
def Options.withSource (options : Options) : Source → Options
  | .file path => { options with program := some path, builtin := none, rules := [] }
  | .builtin name => { options with program := none, builtin := some name, rules := [] }
  | .rules lines => { options with program := none, builtin := none, rules := lines }
  | .input => { options with program := none, builtin := none, rules := [] }

theorem Options.source_withSource (options : Options) {source : Source} (given : source ≠ .rules []) :
    (options.withSource source).source = source := by
  cases source with
  | rules lines => exact source_of_rules rfl rfl fun none => given (congrArg Source.rules none)
  | _ => rfl

theorem Options.override_named (options : Options) (program : Program) (name : String) :
    options.override { program with name } = { options.override program with name } := by
  unfold override
  cases options.initialState <;> rfl

theorem Options.override_withSource (options : Options) (source : Source) :
    (options.withSource source).override = options.override := by
  cases source <;> rfl

/-- A source that holds some rules and nothing else but perhaps a name for them. -/
def Source.Holds (source : Source) (content : Content) (transitions : String) : Prop :=
  ∃ name, source.program content = .ok { Program.ofTransitions transitions with name }

namespace Source.Holds

theorem file {path : String} (plain : Path.extension? path ≠ some "json") (transitions : String) :
    (Source.file path).Holds (.ok transitions.toUTF8) transitions := by
  refine ⟨Path.stem path, ?_⟩
  rw [Source.program, Program.ofFile, Content.text_toUTF8]
  simp only [Except.mapError, if_neg plain, bind, Except.bind]
  rfl

theorem record {path : String} (isRecord : Path.extension? path = some "json") {encoding transitions : String}
    (encodes : Program.ofJson encoding = .ok (Program.ofTransitions transitions)) :
    (Source.file path).Holds (.ok encoding.toUTF8) transitions := by
  refine ⟨Path.stem path, ?_⟩
  rw [Source.program, Program.ofFile, Content.text_toUTF8]
  simp only [Except.mapError, if_pos isRecord, Program.ofJsonText, encodes, bind, Except.bind]
  rfl

theorem input (transitions : String) : Source.input.Holds (.ok transitions.toUTF8) transitions := by
  refine ⟨"", ?_⟩
  rw [Source.program, Content.text_toUTF8]
  rfl

theorem rules (transitions : String) (content : Content) :
    (Source.rules (Table.lines transitions)).Holds content transitions := by
  refine ⟨"", ?_⟩
  rw [Source.program, Table.intercalate_lines]
  rfl

variable {source : Source} {content : Content} {transitions : String}

theorem buildMachine_eq (holds : source.Holds content transitions) (given : source ≠ .rules []) (options : Options) :
    buildMachine (options.withSource source) content =
      (options.override (Program.ofTransitions transitions)).machine.mapError .build := by
  obtain ⟨name, program⟩ := holds
  rw [buildMachine, options.source_withSource given, program, options.override_withSource]
  change (options.override { Program.ofTransitions transitions with name }).machine.mapError _ = _
  rw [options.override_named, Program.machine_named]

/-- What is shown depends on the rules and on the other options, and not on where the rules come from. -/
theorem run_eq {other : Source} {otherContent : Content} (holds : source.Holds content transitions)
    (given : source ≠ .rules []) (holdsToo : other.Holds otherContent transitions) (givenToo : other ≠ .rules [])
    (options : Options) :
    run (options.withSource source) content = run (options.withSource other) otherContent := by
  have shown (machine : Machine) :
      runMachine (options.withSource source) machine = runMachine (options.withSource other) machine := by
    cases source <;> cases other <;> rfl
  have listed : (options.withSource source).list = (options.withSource other).list := by
    cases source <;> cases other <;> rfl
  simp only [run, listed, shown, holds.buildMachine_eq given, holdsToo.buildMachine_eq givenToo]

end Source.Holds

/-- Rules are run alike whether they stand in a file of their own, in a program file, on the standard input
or line by line among the arguments: all lines on both streams and the exit code are the same. -/
theorem rule_sources_agree (options : Options) (transitions : String) :
    Program.ofJson (Program.ofTransitions transitions).json.text = .ok (Program.ofTransitions transitions) ∧
      ∀ (plain record encoding : String) (unused : Content), Path.extension? plain ≠ some "json" →
        Path.extension? record = some "json" → Program.ofJson encoding = .ok (Program.ofTransitions transitions) →
        let outcome := run (options.withSource (.rules (Table.lines transitions))) unused
        run (options.withSource (.file plain)) (.ok transitions.toUTF8) = outcome ∧
          run (options.withSource (.file record)) (.ok encoding.toUTF8) = outcome ∧
          run (options.withSource .input) (.ok transitions.toUTF8) = outcome := by
  refine ⟨Program.ofJson_ofTransitions transitions, ?_⟩
  intro plain record encoding unused isPlain isRecord encodes outcome
  have inArguments := Source.Holds.rules transitions unused
  have given : Source.rules (Table.lines transitions) ≠ .rules [] := by
    simpa using Table.lines_ne_nil transitions
  refine ⟨?_, ?_, ?_⟩
  · exact (Source.Holds.file isPlain transitions).run_eq nofun inArguments given options
  · exact (Source.Holds.record isRecord encodes).run_eq nofun inArguments given options
  · exact (Source.Holds.input transitions).run_eq nofun inArguments given options

/-- The lines end in different ways, and one of them is empty: the line that is refused has the same number
everywhere. -/
theorem rule_sources_agree_refused :
    let transitions := "Q 0 1 R p\r\n\n\"bad\"\n"
    let encoding := "\x7b\"mode\": \"Normal\", \"transitions\": \"Q 0 1 R p\\r\\n\\n\\u0022bad\\\"\\u000a\"\x7d"
    let options : Options := { program := none, builtin := none, rules := [], tape := some "0", initialState := none
                               maxSteps := 5, strict := true, debug := true, json := false, list := false }
    let refused : Outcome := ⟨2, [], ["Error: Malformed transition on line 3: \"\\\"bad\\\"\""]⟩
    Path.extension? "rules.d/p.tm" ≠ some "json" ∧ Path.extension? "p.json" = some "json" ∧
      Program.ofJson encoding = .ok (Program.ofTransitions transitions) ∧
      run (options.withSource (.rules ["Q 0 1 R p\r", "", "\"bad\"", ""])) (.ok ByteArray.empty) = refused ∧
      run (options.withSource (.file "rules.d/p.tm")) (.ok transitions.toUTF8) = refused ∧
      run (options.withSource (.file "p.json")) (.ok encoding.toUTF8) = refused ∧
      run (options.withSource .input) (.ok transitions.toUTF8) = refused := by
  intro transitions encoding options refused
  have isPlain : Path.extension? "rules.d/p.tm" ≠ some "json" := by decide
  have isRecord : Path.extension? "p.json" = some "json" := by decide
  have encodes : Program.ofJson encoding = .ok (Program.ofTransitions transitions) :=
    eq_ok_of_toOption (by decide +kernel)
  have cut : Table.lines transitions = ["Q 0 1 R p\r", "", "\"bad\"", ""] := by decide
  have shown : run (options.withSource (.rules (Table.lines transitions))) (.ok ByteArray.empty) = refused := by
    decide +kernel
  obtain ⟨_, agree⟩ := rule_sources_agree options transitions
  obtain ⟨file, record, input⟩ :=
    agree "rules.d/p.tm" "p.json" encoding (.ok ByteArray.empty) isPlain isRecord encodes
  exact ⟨isPlain, isRecord, encodes, cut ▸ shown, file.trans shown, record.trans shown, input.trans shown⟩

end CommandLine

end TapeMachine
