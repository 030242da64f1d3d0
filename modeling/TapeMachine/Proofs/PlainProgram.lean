import TapeMachine.Proofs.PrintableTable
import TapeMachine.Proofs.StrictMode

namespace TapeMachine

namespace Text

/-- The visible characters of ASCII without the capitals. -/
def isPlain (c : Char) : Bool := 0x20 < c.toNat && c.toNat < 0x7F && !(0x41 ≤ c.toNat && c.toNat ≤ 0x5A)

set_option maxRecDepth 4000 in
/-- The first capitals are those of ASCII, and the next ones stand behind it. -/
theorem caseRuns_ascii : ∀ run ∈ caseRuns, run.first = 0x41 ∧ run.last = 0x5A ∨ 0x7F ≤ run.first := by
  decide

theorem isPlain_iff {c : Char} :
    isPlain c = true ↔ 0x20 < c.toNat ∧ c.toNat < 0x7F ∧ ¬ (0x41 ≤ c.toNat ∧ c.toNat ≤ 0x5A) := by
  simp [isPlain, and_assoc, imp_iff_not_or]

theorem isSmall_of_isPlain {c : Char} (plain : isPlain c = true) : IsSmall c := by
  obtain ⟨visible, ascii, notCapital⟩ := isPlain_iff.mp plain
  refine isSmall_of_not_covers ?_ fun run listed => ?_
  · rintro rfl
    exact absurd ascii (by decide)
  · by_contra covered
    obtain ⟨lower, upper, _⟩ := CaseRun.covers_iff.mp (by simpa using covered)
    rcases caseRuns_ascii run listed with ⟨first, last⟩ | beyond
    · omega
    · omega

theorem isWhitespace_of_isPlain {c : Char} (plain : isPlain c = true) : isWhitespace c = false := by
  obtain ⟨visible, ascii, _⟩ := isPlain_iff.mp plain
  simp only [isWhitespace, whitespaceRanges, CodeRanges.contains, List.any_cons, List.any_nil, Bool.or_false,
    Bool.or_eq_false_iff, Bool.and_eq_false_iff, decide_eq_false_iff_not]
  omega

end Text

open Text

namespace Rule

/-- Each part of the rule is there, and in plain letters. -/
def isPlain (rule : Rule) : Bool := rule.parts.all fun part => !part.isEmpty && part.all Text.isPlain

theorem isPlain_iff {rule : Rule} :
    rule.isPlain = true ↔ ∀ part ∈ rule.parts, part ≠ [] ∧ ∀ c ∈ part, Text.isPlain c = true := by
  simp [isPlain, List.all_eq_true]

theorem printable_of_isPlain {rule : Rule} (isPlain : rule.isPlain = true) : rule.Printable := by
  have plain := isPlain_iff.mp isPlain
  have start : rule.start.toList ∈ rule.parts := by simp [parts]
  have move : rule.move.token.toList ∈ rule.parts := by simp [parts]
  have next : rule.next.toList ∈ rule.parts := by simp [parts]
  constructor
  case unbroken =>
    intro part among
    constructor
    · exact fun member => absurd ((plain part among).2 _ member) (by decide)
    · exact fun member => absurd ((plain part among).2 _ member) (by decide)
  case start_ne => simpa using (plain _ start).1
  case move_ne => simpa using (plain _ move).1
  case next_ne => simpa using (plain _ next).1
  case head => exact fun c atHead => isWhitespace_of_isPlain ((plain _ start).2 c (List.mem_of_head? atHead))
  case last => exact fun c atLast => isWhitespace_of_isPlain ((plain _ next).2 c (List.mem_of_getLast? atLast))
  case small => exact fun part among c member => isSmall_of_isPlain ((plain part among).2 c member)

end Rule

theorem Direction.recognized_of_directed {move : Direction} (directed : move = .left ∨ move = .right) : move.Recognized := by
  rcases directed with rfl | rfl <;> exact ⟨nofun, nofun⟩

namespace Table

variable {table : Table} (printable : ∀ rule ∈ table.rules, rule.Printable)
  (recognized : ∀ rule ∈ table.rules, rule.move.Recognized)
include printable recognized

theorem ofText_text_of_printable : ofText table.text = table := by
  have oneLine := fun rule member => (printable rule member).lineFeed_not_mem_text
  have again := fun rule member => (printable rule member).ofLine?_text (recognized rule member)
  rw [Table.mk.injEq, ofText_text_of_oneLine oneLine, List.filterMap_congr again, List.filterMap_some]

theorem readable_text_of_printable : Readable table.text := by
  by_cases empty : table.rules = []
  · have blankText : table.text = "" := by rw [Table.text, empty]; rfl
    rw [blankText]
    decide
  · have oneLine := fun rule member => (printable rule member).lineFeed_not_mem_text
    rw [Readable, lines_text empty oneLine, List.forall_mem_map]
    intro rule member _
    rw [(printable rule member).ofLine?_text (recognized rule member)]
    rfl

end Table

namespace Program

/-- A strict program that is printed from a plain table without defects has the machine for this table. -/
theorem machine_of_transitions {program : Program} {table : Table} {machine : Machine} (strict : program.mode = .strict)
    (printed : program.transitions = table.text) (plain : table.rules.all Rule.isPlain = true)
    (made : Machine.ofTable? table program.tape program.initialState = some machine)
    (sound : table.defect? machine.initialState = none) : program.machine = .ok machine := by
  obtain ⟨_, directed, _⟩ := (table.defect?_eq_none_iff machine.initialState).mp sound
  have recognized : ∀ rule ∈ table.rules, rule.move.Recognized :=
    fun rule member => Direction.recognized_of_directed (directed rule member)
  have printable : ∀ rule ∈ table.rules, rule.Printable :=
    fun rule member => Rule.printable_of_isPlain (List.all_eq_true.mp plain rule member)
  have parsed : Table.ofTextIn program.mode program.transitions = .ok table := by
    rw [printed]
    exact Table.ofTextIn_eq_ok_iff.mpr
      ⟨fun _ => Table.readable_text_of_printable printable recognized, Table.ofText_text_of_printable printable recognized⟩
  have isTable : machine.table = table := by
    obtain ⟨state, _, rfl⟩ := Machine.ofTable?_eq_some_iff.mp made
    rfl
  rw [machine_eq, parsed]
  dsimp only
  rw [made]
  dsimp only
  rw [if_pos strict, checked, isTable, sound]

end Program

end TapeMachine
