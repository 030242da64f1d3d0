import TapeMachine.Proofs.NormalLine
import TapeMachine.Table.Reading

namespace TapeMachine

theorem Rule.lineFeed_not_mem_text {line : String} {rule : Rule} (holds : Rule.ofLine? line = some rule)
    (oneLine : '\n' ∉ line.toList) : '\n' ∉ rule.text.toList := by
  obtain ⟨start, move, next, has⟩ := hasTokens_of_ofLine? holds
  rw [has.text_eq]
  exact fun member => oneLine (mem_of_isWhitespace_of_mem_normalLine (by decide) member)

namespace Table

theorem lineFeed_not_mem_lines {text line : String} (member : line ∈ lines text) : '\n' ∉ line.toList := by
  obtain ⟨piece, cut, rfl⟩ := List.mem_map.mp member
  rw [String.toList_ofList]
  exact Text.not_mem_of_mem_splitOn cut

theorem ofText_rules (text : String) : (ofText text).rules = (lines text).filterMap Rule.ofLine? := rfl

theorem exists_line_of_mem_ofText {text : String} {rule : Rule} (member : rule ∈ (ofText text).rules) :
    ∃ line ∈ lines text, Rule.ofLine? line = some rule :=
  List.mem_filterMap.mp member

/-- Texts without line feeds are the lines of what they are joined to. -/
theorem lines_intercalate {texts : List String} (nonempty : texts ≠ []) (oneLine : ∀ line ∈ texts, '\n' ∉ line.toList) :
    lines ("\n".intercalate texts) = texts := by
  have cut : ("\n".intercalate texts).toList.splitOn '\n' = texts.map String.toList := by
    rw [String.toList_intercalate]
    refine List.splitOn_intercalate '\n' ?_ (by simpa using nonempty)
    exact List.forall_mem_map.mpr oneLine
  rw [lines, cut, List.map_map]
  exact (List.map_congr_left fun line _ => String.ofList_toList).trans (List.map_id texts)

/-- A table of one-line rules prints each of them on a line of its own. -/
theorem lines_text {table : Table} (nonempty : table.rules ≠ [])
    (oneLine : ∀ rule ∈ table.rules, '\n' ∉ rule.text.toList) : lines table.text = table.rules.map Rule.text :=
  lines_intercalate (by simpa using nonempty) (List.forall_mem_map.mpr oneLine)

/-- A table of one-line rules is read from its text rule by rule. -/
theorem ofText_text_of_oneLine {table : Table} (oneLine : ∀ rule ∈ table.rules, '\n' ∉ rule.text.toList) :
    (ofText table.text).rules = table.rules.filterMap fun rule => Rule.ofLine? rule.text := by
  by_cases nonempty : table.rules = []
  · have blankText : table.text = "" := by rw [Table.text, nonempty]; rfl
    rw [blankText, nonempty]
    decide
  · rw [ofText_rules, lines_text nonempty oneLine, List.filterMap_map, Function.comp_def]

theorem ofText_text_rules (text : String) :
    (ofText (ofText text).text).rules = (ofText text).rules.filter (·.move ≠ .unknown "") := by
  have oneLine : ∀ rule ∈ (ofText text).rules, '\n' ∉ rule.text.toList := by
    intro rule member
    obtain ⟨line, among, holds⟩ := exists_line_of_mem_ofText member
    exact Rule.lineFeed_not_mem_text holds (lineFeed_not_mem_lines among)
  have again : ∀ rule ∈ (ofText text).rules,
      Rule.ofLine? rule.text = Option.guard (fun rule => decide (rule.move ≠ .unknown "")) rule := by
    intro rule member
    obtain ⟨line, _, holds⟩ := exists_line_of_mem_ofText member
    rw [Rule.ofLine?_text holds]
    by_cases unnamed : rule.move = .unknown "" <;> simp [Option.guard, unnamed]
  rw [ofText_text_of_oneLine oneLine, ← List.filterMap_eq_filter]
  exact List.filterMap_congr again

/-- A table that was read and printed is read again without the rules whose move is the empty token.
So it comes back unchanged exactly if there are none. -/
theorem ofText_text (text : String) :
    (ofText (ofText text).text).rules = (ofText text).rules.filter (·.move ≠ .unknown "") ∧
      (ofText (ofText text).text = ofText text ↔ ∀ rule ∈ (ofText text).rules, rule.move ≠ .unknown "") := by
  have kept := ofText_text_rules text
  refine ⟨kept, ?_⟩
  rw [Table.mk.injEq, kept, List.filter_eq_self]
  simp only [decide_eq_true_eq]

/-- The first gap of a line is closed and the second one is a token: printed, it is the first gap. -/
theorem ofText_text_ne_of_second_gap :
    (ofText "q  0 0  p").rules = [⟨"q", '0', '0', .unknown "", "p"⟩] ∧
      ofText (ofText "q  0 0  p").text = ⟨[]⟩ ∧ ofText (ofText "q  0 0  p").text ≠ ofText "q  0 0  p" := by
  decide

end Table

end TapeMachine
