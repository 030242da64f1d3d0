import TapeMachine.Proofs.Directed
import TapeMachine.Proofs.StrictReading

namespace TapeMachine

theorem Table.ofText_rules_eq_nil_iff {text : String} :
    (ofText text).rules = [] ↔ ∀ line ∈ lines text, Rule.ofLine? line = none :=
  List.filterMap_eq_nil_iff

namespace Machine

theorem ofTable?_eq_none_iff {table : Table} {input : String} {initial : Option State} :
    ofTable? table input initial = none ↔ table.rules = [] ∧ (initial = none ∨ initial = some "") := by
  have noRule : table.initialState? = none ↔ table.rules = [] := by
    rw [Table.initialState?, Option.map_eq_none_iff, List.head?_eq_none_iff]
  have unset : initial.filter (· ≠ "") = none ↔ initial = none ∨ initial = some "" := by
    cases initial <;> simp
  rw [ofTable?, Option.map_eq_none_iff, ← noRule, ← unset]
  cases initial.filter (· ≠ "") <;> simp

end Machine

namespace Program

/-- A machine is passed on if its table has no defect from its initial state on. -/
def checked (machine : Machine) : Except BuildError Machine :=
  match machine.table.defect? machine.initialState with
  | some defect => .error (.defective defect)
  | none => .ok machine

theorem machine_eq (program : Program) : program.machine =
    match Table.ofTextIn program.mode program.transitions with
    | .error fault => .error (.malformedLine fault)
    | .ok table =>
      match Machine.ofTable? table program.tape program.initialState with
      | none => .error .missingInitialState
      | some machine => if program.mode = .strict then checked machine else .ok machine := by
  unfold Program.machine
  cases Table.ofTextIn program.mode program.transitions with
  | error fault => rfl
  | ok table =>
    simp only [Except.mapError, bind, Except.bind]
    cases made : Machine.ofTable? table program.tape program.initialState with
    | none => rfl
    | some machine =>
      obtain ⟨state, _, rfl⟩ := Machine.ofTable?_eq_some_iff.mp made
      rfl

theorem eq_of_checked {candidate machine : Machine} (passed : checked candidate = .ok machine) : candidate = machine := by
  unfold checked at passed
  split at passed
  · cases passed
  · exact Except.ok.inj passed

/-- Whatever its mode, a program's machine has the table that is read from the text line by line. -/
theorem ofTable?_ofText_of_machine {program : Program} {machine : Machine} (built : program.machine = .ok machine) :
    Machine.ofTable? (Table.ofText program.transitions) program.tape program.initialState = some machine := by
  rw [machine_eq] at built
  cases parsed : Table.ofTextIn program.mode program.transitions with
  | error fault =>
    rw [parsed] at built
    cases built
  | ok table =>
    obtain ⟨_, rfl⟩ := Table.ofTextIn_eq_ok_iff.mp parsed
    rw [parsed] at built
    dsimp only at built
    split at built
    · cases built
    · rename_i candidate made
      rw [made]
      split at built
      · rw [eq_of_checked built]
      · rw [Except.ok.inj built]

section

variable (program : Program)

theorem machine_normal : { program with mode := .normal }.machine =
    match Machine.ofTable? (Table.ofText program.transitions) program.tape program.initialState with
    | none => .error .missingInitialState
    | some machine => .ok machine := by
  rw [machine_eq]
  rfl

theorem machine_normal_eq_error_iff {error : BuildError} : { program with mode := .normal }.machine = .error error ↔
    error = .missingInitialState ∧
      Machine.ofTable? (Table.ofText program.transitions) program.tape program.initialState = none := by
  rw [machine_normal]
  cases Machine.ofTable? (Table.ofText program.transitions) program.tape program.initialState <;> simp [eq_comm]

/-- On a readable text the strict mode differs only in what it does with the machine that is built. -/
theorem machine_strict_of_readable (readable : Table.Readable program.transitions) :
    { program with mode := .strict }.machine = { program with mode := .normal }.machine.bind checked := by
  have parsed : Table.ofTextIn .strict program.transitions = .ok (Table.ofText program.transitions) :=
    Table.ofTextStrict_eq_ok_iff.mpr ⟨readable, rfl⟩
  rw [machine_normal, machine_eq]
  dsimp only
  rw [parsed]
  dsimp only
  cases Machine.ofTable? (Table.ofText program.transitions) program.tape program.initialState with
  | none => rfl
  | some machine => rfl

theorem machine_strict_of_not_readable (unreadable : ¬ Table.Readable program.transitions) :
    ∃ fault, { program with mode := .strict }.machine = .error (.malformedLine fault) := by
  cases parsed : Table.ofTextStrict program.transitions with
  | error fault =>
    have refused : Table.ofTextIn .strict program.transitions = .error fault := parsed
    refine ⟨fault, ?_⟩
    rw [machine_eq]
    dsimp only
    rw [refused]
  | ok table => exact absurd (Table.ofTextStrict_eq_ok_iff.mp parsed).1 unreadable

/-- What normal and strict mode make of one program. -/
inductive Filtered (readable : Prop) : Except BuildError Machine → Except BuildError Machine → Prop
  | malformedLine {lenient fault} : ¬ readable → Filtered readable lenient (.error (.malformedLine fault))
  | missingInitialState : readable → Filtered readable (.error .missingInitialState) (.error .missingInitialState)
  | defective {machine defect} : readable → machine.table.defect? machine.initialState = some defect →
      Filtered readable (.ok machine) (.error (.defective defect))
  | passed {machine} : readable → machine.table.defect? machine.initialState = none →
      Filtered readable (.ok machine) (.ok machine)

theorem filtered : Filtered (Table.Readable program.transitions)
    { program with mode := .normal }.machine { program with mode := .strict }.machine := by
  by_cases readable : Table.Readable program.transitions
  · rw [program.machine_strict_of_readable readable]
    cases made : { program with mode := .normal }.machine with
    | error error =>
      obtain ⟨rfl, _⟩ := program.machine_normal_eq_error_iff.mp made
      exact .missingInitialState readable
    | ok machine =>
      rw [Except.bind, checked]
      cases analysed : machine.table.defect? machine.initialState with
      | some defect => exact .defective readable analysed
      | none => exact .passed readable analysed
  · obtain ⟨fault, refused⟩ := program.machine_strict_of_not_readable readable
    rw [refused]
    exact .malformedLine readable

end

namespace Filtered

variable {readable : Prop} {lenient strict : Except BuildError Machine} (filtered : Filtered readable lenient strict)
include filtered

theorem eq_ok_iff {machine : Machine} : strict = .ok machine ↔
    readable ∧ lenient = .ok machine ∧ machine.table.defect? machine.initialState = none := by
  cases filtered with
  | malformedLine unreadable => simp [unreadable]
  | missingInitialState => simp
  | defective _ analysed =>
    simp only [reduceCtorEq, Except.ok.injEq, false_iff, not_and]
    rintro _ rfl
    simp [analysed]
  | passed holds analysed =>
    simp only [holds, Except.ok.injEq, true_and]
    constructor
    · rintro rfl
      exact ⟨rfl, analysed⟩
    · exact And.left

theorem malformedLine_iff : (∃ fault, strict = .error (.malformedLine fault)) ↔ ¬ readable := by
  cases filtered with
  | malformedLine unreadable => simp [unreadable]
  | missingInitialState holds => simp [holds]
  | defective holds => simp [holds]
  | passed holds => simp [holds]

theorem missingInitialState_iff :
    strict = .error .missingInitialState ↔ readable ∧ lenient = .error .missingInitialState := by
  cases filtered with
  | malformedLine unreadable => simp [unreadable]
  | missingInitialState holds => simp [holds]
  | defective => simp
  | passed => simp

theorem defective_iff {defect : Defect} : strict = .error (.defective defect) ↔
    readable ∧ ∃ machine, lenient = .ok machine ∧ machine.table.defect? machine.initialState = some defect := by
  cases filtered with
  | malformedLine unreadable => simp [unreadable]
  | missingInitialState => simp
  | defective holds analysed => simp [holds, analysed]
  | passed _ analysed => simp [analysed]

end Filtered

/-- Strict mode refuses some programs and changes none. It passes the machine of normal mode on if every
line of the text is a rule or white and the analysis has no objection, and then no step can fail for want
of a direction. What is wrong with the text is told first, then what is missing, then the defect. Normal
mode only refuses a program without any rule that does not say where to start. -/
theorem strict_mode_filters (program : Program) :
    let strict := { program with mode := .strict }
    let lenient := { program with mode := .normal }
    (∀ machine, strict.machine = .ok machine ↔
      Table.Readable program.transitions ∧ lenient.machine = .ok machine ∧
        machine.table.defect? machine.initialState = none) ∧
    (∀ machine, strict.machine = .ok machine → ∀ operations index token,
      .stepped (.aborted (.invalidDirection index token)) ∉ machine.replies operations) ∧
    ((∃ fault, strict.machine = .error (.malformedLine fault)) ↔ ¬ Table.Readable program.transitions) ∧
    (strict.machine = .error .missingInitialState ↔
      Table.Readable program.transitions ∧ lenient.machine = .error .missingInitialState) ∧
    (∀ defect, strict.machine = .error (.defective defect) ↔
      Table.Readable program.transitions ∧ ∃ machine, lenient.machine = .ok machine ∧
        machine.table.defect? machine.initialState = some defect) ∧
    ∀ error, lenient.machine = .error error ↔ error = .missingInitialState ∧
      (∀ line ∈ Table.lines program.transitions, Rule.ofLine? line = none) ∧
        (program.initialState = none ∨ program.initialState = some "") := by
  intro strict lenient
  have filtered : Filtered (Table.Readable program.transitions) lenient.machine strict.machine := program.filtered
  refine ⟨fun machine => filtered.eq_ok_iff, ?_, filtered.malformedLine_iff, filtered.missingInitialState_iff,
    fun defect => filtered.defective_iff, ?_⟩
  · intro machine passed
    obtain ⟨_, _, clean⟩ := filtered.eq_ok_iff.mp passed
    obtain ⟨_, directed, _⟩ := (machine.table.defect?_eq_none_iff _).mp clean
    exact Machine.invalidDirection_not_mem_replies directed
  · intro error
    rw [program.machine_normal_eq_error_iff, Machine.ofTable?_eq_none_iff, Table.ofText_rules_eq_nil_iff]

/-- A white line and capitals are nothing to object to. -/
theorem strict_mode_filters_white_line :
    let program : Program := ⟨"", "01", "q 0 1 r p\n \n P 1 _ L halt-accept", none, .normal⟩
    let machine := Machine.start ⟨[⟨"q", '0', '1', .right, "p"⟩, ⟨"p", '1', '_', .left, "halt-accept"⟩]⟩ "01" "q"
    { program with mode := .strict }.machine = .ok machine ∧
      ∀ operations index token, .stepped (.aborted (.invalidDirection index token)) ∉ machine.replies operations := by
  intro program machine
  have readable : Table.Readable program.transitions := by decide
  have made : Machine.ofTable? (Table.ofText program.transitions) program.tape program.initialState = some machine := by
    decide
  have lenient : { program with mode := .normal }.machine = .ok machine := by rw [machine_normal, made]
  have clean : machine.table.defect? machine.initialState = none := by decide
  obtain ⟨accepts, directed, _⟩ := strict_mode_filters program
  have passed : { program with mode := .strict }.machine = .ok machine :=
    (accepts machine).mpr ⟨readable, lenient, clean⟩
  exact ⟨passed, directed machine passed⟩

end Program

end TapeMachine
