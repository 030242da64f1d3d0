import TapeMachine.Proofs.LineGrammar
import TapeMachine.Proofs.PrintableTable

namespace TapeMachine

open Text

namespace Rule

/-- A line for a rule without a move: the first gap is wide, and so is the one where the move is missing. -/
def movelessLine (rule : Rule) : List Char :=
  rule.start.toList ++ gap 2 ++ ([rule.read] ++ gap 1 ++ ([rule.write] ++ gap 2 ++ rule.next.toList))

namespace Expressible

variable {rule : Rule}

theorem isToken (expressible : rule.Expressible) :
    ∀ part ∈ [rule.start.toList, [rule.read], [rule.write], rule.next.toList], IsToken part := by
  have unspaced := fun part among => (expressible.unbroken part among).1
  simp only [parts, List.forall_mem_cons] at unspaced ⊢
  have start : rule.start.toList ≠ [] := by simpa using expressible.start_ne
  have next : rule.next.toList ≠ [] := by simpa using expressible.next_ne
  exact ⟨⟨start, unspaced.1⟩, ⟨List.cons_ne_nil _ _, unspaced.2.1⟩, ⟨List.cons_ne_nil _ _, unspaced.2.2.1⟩,
    ⟨next, unspaced.2.2.2.2.1⟩, List.forall_mem_nil _⟩

theorem laidOut_movelessLine (expressible : rule.Expressible) :
    LaidOut rule.start.toList [(2, [rule.read]), (1, [rule.write]), (2, rule.next.toList)] rule.movelessLine := by
  have isToken := expressible.isToken
  simp only [List.forall_mem_cons] at isToken
  obtain ⟨start, read, write, next, _⟩ := isToken
  exact .next start (by decide) (.next read (by decide) (.next write (by decide) (.last next)))

theorem trim_movelessLine (expressible : rule.Expressible) : trim rule.movelessLine = rule.movelessLine := by
  refine Trimmed.trim_eq ⟨fun c atHead => ?_, fun c atLast => ?_⟩
  · have start : rule.start.toList ≠ [] := by simpa using expressible.start_ne
    rw [movelessLine, List.append_assoc, List.head?_append_of_ne_nil _ start] at atHead
    exact expressible.head c atHead
  · have next : rule.next.toList ≠ [] := by simpa using expressible.next_ne
    simp only [movelessLine, ← List.append_assoc] at atLast
    rw [List.getLast?_append_of_ne_nil _ next] at atLast
    exact expressible.last c atLast

theorem ofLine?_movelessLine (expressible : rule.Expressible) (unnamed : rule.move = .unknown "") :
    ofLine? (String.ofList rule.movelessLine) = some rule := by
  have form : LineForm (trim (String.ofList rule.movelessLine).toList)
      ⟨rule.start.toList, [rule.read], [rule.write], [], rule.next.toList⟩ := by
    rw [String.toList_ofList, expressible.trim_movelessLine]
    exact .moveless expressible.laidOut_movelessLine (by decide)
  have small := expressible.small
  simp only [parts, List.forall_mem_cons] at small
  obtain ⟨start, read, write, _, next, _⟩ := small
  refine form.ofLine?_iff.mpr ⟨?_, read.symm, write.symm, unnamed, ?_⟩
  · rw [start, String.ofList_toList]
  · rw [next, String.ofList_toList]

theorem lineFeed_not_mem_movelessLine (expressible : rule.Expressible) : '\n' ∉ rule.movelessLine := by
  have unbroken := fun part among => (expressible.unbroken part among).2
  simp only [parts, List.forall_mem_cons] at unbroken
  obtain ⟨start, read, write, _, next, _⟩ := unbroken
  rw [List.mem_singleton] at read write
  simp [movelessLine, gap, start, read, write, next]

theorem exists_line (expressible : rule.Expressible) : ∃ line, '\n' ∉ line.toList ∧ ofLine? line = some rule := by
  by_cases unnamed : rule.move = .unknown ""
  · refine ⟨String.ofList rule.movelessLine, ?_, expressible.ofLine?_movelessLine unnamed⟩
    rw [String.toList_ofList]
    exact expressible.lineFeed_not_mem_movelessLine
  · have printable := expressible.printable unnamed
    exact ⟨rule.text, printable.lineFeed_not_mem_text, printable.ofLine?_text expressible.recognized⟩

end Expressible

end Rule

namespace Table

/-- The rules that some text holds. Their states are names in small letters without spaces and line feeds, and
no white space is in front of the first or behind the second. White space of other kinds can be anywhere else. -/
theorem exists_mem_ofText_iff (rule : Rule) : (∃ text, rule ∈ (ofText text).rules) ↔ rule.Expressible := by
  constructor
  · rintro ⟨text, member⟩
    obtain ⟨line, among, holds⟩ := exists_line_of_mem_ofText member
    exact Rule.expressible_of_ofLine? holds (lineFeed_not_mem_lines among)
  · intro expressible
    obtain ⟨line, oneLine, holds⟩ := expressible.exists_line
    refine ⟨line, List.mem_filterMap.mpr ⟨line, ?_, holds⟩⟩
    have whole : lines ("\n".intercalate [line]) = [line] :=
      lines_intercalate (List.cons_ne_nil _ _) (List.forall_mem_singleton.mpr oneLine)
    rw [String.intercalate_singleton] at whole
    rw [whole]
    exact List.mem_singleton.mpr rfl

/-- Tabs and no-break spaces do not end a token. They are within both states here, and are the symbols. -/
theorem ofText_white_within :
    let rule : Rule := ⟨"q\tx", '\t', '\u00a0', .right, "p\ty\tz"⟩
    (ofText "q\tx \t \u00a0 r p\ty\tz").rules = [rule] ∧
      (¬ ∀ c ∈ rule.start.toList, isWhitespace c = false) ∧ (¬ ∀ c ∈ rule.next.toList, isWhitespace c = false) ∧
      ¬ isWhitespace rule.read = false ∧ ¬ isWhitespace rule.write = false := by
  have white : isWhitespace '\t' = true := by decide
  refine ⟨by decide, fun start => ?_, fun next => ?_, by decide, by decide⟩
  · rw [start '\t' (by decide)] at white
    contradiction
  · rw [next '\t' (by decide)] at white
    contradiction

end Table

end TapeMachine
