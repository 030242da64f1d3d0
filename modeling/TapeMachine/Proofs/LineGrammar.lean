import TapeMachine.Proofs.LineLayout
import TapeMachine.Proofs.SpacedLetters

namespace TapeMachine

open Text

/-- The tokens of a rule as they stand on a line, with their capitals. -/
structure RuleTokens where
  start : List Char
  read : List Char
  write : List Char
  move : List Char
  next : List Char

/-- The two forms of a line that holds a rule. Either all five tokens stand there and at most one gap
is wide, or the move is left out: then there are two spaces where it is missing, and exactly one of
the gaps before them is wide. -/
inductive LineForm (text : List Char) : RuleTokens → Prop
  | complete {start read write move next : List Char} {a b c d : Nat} :
      LaidOut start [(a, read), (b, write), (c, move), (d, next)] text → [a, b, c, d].countP (2 ≤ ·) ≤ 1 →
      LineForm text ⟨start, read, write, move, next⟩
  | moveless {start read write next : List Char} {a b : Nat} :
      LaidOut start [(a, read), (b, write), (2, next)] text → [a, b].countP (2 ≤ ·) = 1 →
      LineForm text ⟨start, read, write, [], next⟩

/-- A single character whose small form is a single character too. -/
def IsSymbol (token : List Char) : Prop := ∃ c small, token = [c] ∧ lower [c] = [small]

namespace RuleTokens

def list (tokens : RuleTokens) : List (List Char) :=
  [tokens.start, tokens.read, tokens.write, tokens.move, tokens.next]

/-- The parts of a rule are the tokens, each of them made small on its own. -/
structure Spell (tokens : RuleTokens) (rule : Rule) : Prop where
  start : rule.start = String.ofList (lower tokens.start)
  read : [rule.read] = lower tokens.read
  write : [rule.write] = lower tokens.write
  move : rule.move =
    if lower tokens.move = ['l'] then .left
    else if lower tokens.move = ['r'] then .right
    else .unknown (String.ofList (lower tokens.move))
  next : rule.next = String.ofList (lower tokens.next)

end RuleTokens

namespace Text

theorem exists_of_lower_eq_singleton {token : List Char} {small : Char} (single : lower token = [small]) :
    ∃ c, token = [c] := by
  cases token with
  | nil => cases single
  | cons c token =>
    cases token with
    | nil => exact ⟨c, rfl⟩
    | cons d token =>
      have first := List.length_pos_of_ne_nil (lowerAmid_ne_nil [] c (d :: token))
      have second := List.length_pos_of_ne_nil (lowerAfter_ne_nil [c] d token)
      have total := congrArg List.length single
      rw [lower, lowerAfter_cons, List.length_append, List.length_singleton] at total
      omega

theorem isSymbol_iff {token : List Char} : IsSymbol token ↔ ∃ small, lower token = [small] := by
  constructor
  · rintro ⟨c, small, rfl, single⟩
    exact ⟨small, single⟩
  · rintro ⟨small, single⟩
    obtain ⟨c, rfl⟩ := exists_of_lower_eq_singleton single
    exact ⟨c, small, rfl, single⟩

/-- The gap that stands for a missing move is not closed if another one was wide before it. -/
theorem closeFirst_moveless_iff {read write next : List Char} {a b c : Nat} (first : 0 < a) (second : 0 < b) :
    closeFirst [(a, read), (b, write), (c, next)] = [(1, read), (1, write), (2, next)] ↔
      c = 2 ∧ [a, b].countP (2 ≤ ·) = 1 := by
  by_cases wideFirst : 2 ≤ a
  · by_cases wideSecond : 2 ≤ b
    · have other : b ≠ 1 := by omega
      simp [closeFirst, wideFirst, wideSecond, other]
    · have single : b = 1 := by omega
      simp [closeFirst, wideFirst, single]
  · have single : a = 1 := by omega
    by_cases wideSecond : 2 ≤ b
    · simp [closeFirst, single, wideSecond]
    · by_cases wideThird : 2 ≤ c
      · simp [closeFirst, single, wideSecond, wideThird]
      · have other : c ≠ 2 := by omega
        simp [closeFirst, single, wideSecond, wideThird, other]

theorem steps_of_pieces {steps : List (Nat × List Char)} (positive : ∀ step ∈ steps, 0 < step.1 ∧ step.2 ≠ [])
    {read write move next : List Char} (cut : pieces steps = [read, write, move, next])
    (isRead : read ≠ []) (isWrite : write ≠ []) :
    steps = [(1, read), (1, write), (1, move), (1, next)] ∨ move = [] ∧ steps = [(1, read), (1, write), (2, next)] := by
  obtain ⟨afterRead, rfl, fromWrite⟩ := pieces_behind_space positive cut isRead
  have positive := (List.forall_mem_cons.mp positive).2
  obtain ⟨afterWrite, rfl, fromMove⟩ := pieces_behind_space positive fromWrite isWrite
  have positive := (List.forall_mem_cons.mp positive).2
  rcases pieces_eq_cons positive fromMove with ⟨_, afterMove, rfl, fromNext⟩ | ⟨rfl, width, token, later, rfl, fromNext⟩
  · have positive := (List.forall_mem_cons.mp positive).2
    rcases pieces_eq_cons positive fromNext with ⟨_, afterNext, rfl, behind⟩ | ⟨_, width, token, later, _, behind⟩
    · cases pieces_eq_nil_iff.mp behind
      exact Or.inl rfl
    · simp at behind
  · cases width with
    | zero =>
      obtain ⟨rfl, behind⟩ := List.cons.inj fromNext
      cases pieces_eq_nil_iff.mp behind
      exact Or.inr ⟨rfl, rfl⟩
    | succ width =>
      -- A wider gap would leave a second empty piece.
      rw [List.replicate_succ] at fromNext
      simp at fromNext

end Text

namespace LineForm

variable {text : List Char} {tokens : RuleTokens}

theorem splitOn_collapseGap (form : LineForm text tokens) : (collapseGap text).splitOn ' ' = tokens.list := by
  cases form with
  | @complete start read write move next a b c d laid oneWide =>
    have narrow := (narrow_closeFirst_iff fun step member => (laid.positive step member).1).mpr oneWide
    rw [laid.collapseGap.splitOn, pieces_of_narrow narrow, map_snd_closeFirst]
    rfl
  | @moveless start read write next a b laid oneWide =>
    have positive := laid.positive
    simp only [List.forall_mem_cons] at positive
    have closed : closeFirst [(a, read), (b, write), (2, next)] = [(1, read), (1, write), (2, next)] :=
      (closeFirst_moveless_iff positive.1.1 positive.2.1.1).mpr ⟨rfl, oneWide⟩
    rw [laid.collapseGap.splitOn, closed]
    rfl

/-- Any other line is cut into another number of pieces, or has an empty piece in place of a symbol. -/
theorem of_splitOn_collapseGap (trimmed : Trimmed text) (cut : (collapseGap text).splitOn ' ' = tokens.list)
    (read : tokens.read ≠ []) (write : tokens.write ≠ []) : LineForm text tokens := by
  have nonempty : text ≠ [] := by
    rintro rfl
    simp [collapseGap, RuleTokens.list] at cut
  obtain ⟨first, steps, laid⟩ := trimmed.exists_laidOut nonempty
  rw [laid.collapseGap.splitOn] at cut
  obtain ⟨start, symbol, symbol', move, next⟩ := tokens
  obtain ⟨rfl, cut⟩ := List.cons.inj cut
  have kept := (map_snd_closeFirst steps).symm
  rcases steps_of_pieces laid.collapseGap.positive cut read write with closed | ⟨rfl, closed⟩
  · have oneWide := (narrow_closeFirst_iff fun step member => (laid.positive step member).1).mp (by simp [closed])
    simp only [closed, List.map_cons, List.map_nil, List.map_eq_cons_iff, List.map_eq_nil_iff] at kept
    obtain ⟨⟨a, _⟩, _, rfl, rfl, ⟨b, _⟩, _, rfl, rfl, ⟨c, _⟩, _, rfl, rfl, ⟨d, _⟩, _, rfl, rfl, rfl⟩ := kept
    exact .complete laid oneWide
  · simp only [closed, List.map_cons, List.map_nil, List.map_eq_cons_iff, List.map_eq_nil_iff] at kept
    obtain ⟨⟨a, _⟩, _, rfl, rfl, ⟨b, _⟩, _, rfl, rfl, ⟨c, _⟩, _, rfl, rfl, rfl⟩ := kept
    have positive := laid.positive
    simp only [List.forall_mem_cons] at positive
    obtain ⟨rfl, oneWide⟩ := (closeFirst_moveless_iff positive.1.1 positive.2.1.1).mp closed
    exact .moveless laid oneWide

end LineForm

theorem Direction.ofToken_ofList (token : List Char) : ofToken (String.ofList token) =
    if token = ['l'] then left else if token = ['r'] then right else unknown (String.ofList token) := by
  have isLeft : String.ofList token = "l" ↔ token = ['l'] := @String.ofList_inj token ['l']
  have isRight : String.ofList token = "r" ↔ token = ['r'] := @String.ofList_inj token ['r']
  simp only [ofToken, isLeft, isRight]

namespace RuleTokens

variable {tokens : RuleTokens} {rule : Rule}

theorem ofTokens?_lower_iff : Rule.ofTokens? (tokens.list.map lower) = some rule ↔ tokens.Spell rule := by
  constructor
  · intro holds
    unfold Rule.ofTokens? at holds
    split at holds
    · rename_i start read write move next atTokens
      simp only [list, List.map_cons, List.map_nil, List.cons.injEq, and_true] at atTokens
      obtain ⟨atStart, atRead, atWrite, atMove, atNext⟩ := atTokens
      cases Option.some.inj holds
      exact ⟨by rw [atStart], atRead.symm, atWrite.symm, by rw [atMove, Direction.ofToken_ofList], by rw [atNext]⟩
    · cases holds
  · intro spell
    have symbols : tokens.list.map lower =
        [lower tokens.start, [rule.read], [rule.write], lower tokens.move, lower tokens.next] := by
      rw [spell.read, spell.write]
      rfl
    rw [symbols, Rule.ofTokens?, Direction.ofToken_ofList, ← spell.start, ← spell.move, ← spell.next]

theorem exists_spell (read : IsSymbol tokens.read) (write : IsSymbol tokens.write) : ∃ rule, tokens.Spell rule := by
  obtain ⟨readSmall, atRead⟩ := isSymbol_iff.mp read
  obtain ⟨writeSmall, atWrite⟩ := isSymbol_iff.mp write
  exact ⟨⟨_, readSmall, writeSmall, _, _⟩, rfl, atRead.symm, atWrite.symm, rfl, rfl⟩

theorem Spell.isSymbol (spell : tokens.Spell rule) : IsSymbol tokens.read ∧ IsSymbol tokens.write :=
  ⟨isSymbol_iff.mpr ⟨rule.read, spell.read.symm⟩, isSymbol_iff.mpr ⟨rule.write, spell.write.symm⟩⟩

end RuleTokens

theorem IsSymbol.ne_nil {token : List Char} (isSymbol : IsSymbol token) : token ≠ [] := by
  obtain ⟨c, _, rfl, _⟩ := isSymbol
  exact List.cons_ne_nil c []

theorem LineForm.ofLine?_iff {line : String} {tokens : RuleTokens} (form : LineForm (trim line.toList) tokens)
    {rule : Rule} : Rule.ofLine? line = some rule ↔ tokens.Spell rule := by
  rw [Rule.ofLine?, lineTokens_eq_map_lower, form.splitOn_collapseGap]
  exact RuleTokens.ofTokens?_lower_iff

theorem Rule.exists_form_of_ofLine? {line : String} {rule : Rule} (holds : ofLine? line = some rule) :
    ∃ tokens, LineForm (trim line.toList) tokens ∧ tokens.Spell rule := by
  obtain ⟨_, _, _, has⟩ := hasTokens_of_ofLine? holds
  have cut := has.tokens
  simp only [lineTokens_eq_map_lower, List.map_eq_cons_iff, List.map_eq_nil_iff] at cut
  obtain ⟨start, _, atLine, _, read, _, rfl, atRead, write, _, rfl, atWrite, move, _, rfl, _, next, _, rfl, _, rfl⟩ := cut
  have isRead := isSymbol_iff.mpr ⟨_, atRead⟩
  have isWrite := isSymbol_iff.mpr ⟨_, atWrite⟩
  have form : LineForm (trim line.toList) ⟨start, read, write, move, next⟩ :=
    .of_splitOn_collapseGap (trimmed_trim _) atLine isRead.ne_nil isWrite.ne_nil
  exact ⟨_, form, form.ofLine?_iff.mp holds⟩

/-- A line holds a rule exactly if it has one of the two forms, with symbols in the second and the third
place. The tokens then spell the rule. -/
theorem Rule.ofLine?_grammar (line : String) :
    ((ofLine? line).isSome = true ↔
        ∃ tokens, LineForm (trim line.toList) tokens ∧ IsSymbol tokens.read ∧ IsSymbol tokens.write) ∧
      ∀ tokens rule, LineForm (trim line.toList) tokens → ofLine? line = some rule → tokens.Spell rule := by
  refine ⟨⟨?accepted, ?formed⟩, fun tokens rule form => form.ofLine?_iff.mp⟩
  case accepted =>
    intro holds
    obtain ⟨rule, holds⟩ := Option.isSome_iff_exists.mp holds
    obtain ⟨tokens, form, spell⟩ := exists_form_of_ofLine? holds
    exact ⟨tokens, form, spell.isSymbol⟩
  case formed =>
    rintro ⟨tokens, form, read, write⟩
    obtain ⟨rule, spell⟩ := RuleTokens.exists_spell read write
    exact Option.isSome_iff_exists.mpr ⟨rule, form.ofLine?_iff.mpr spell⟩

/-- The first gap is wide and the move is left out. A carriage return ends the line, and the last sigma
is a final one. -/
theorem Rule.ofLine?_grammar_moveless :
    let line := "Q  0 Σ  PΣ\r"
    let tokens : RuleTokens := ⟨['Q'], ['0'], ['Σ'], [], ['P', 'Σ']⟩
    let rule : Rule := ⟨"q", '0', 'σ', .unknown "", "pς"⟩
    LineForm (trim line.toList) tokens ∧ ofLine? line = some rule ∧ tokens.Spell rule := by
  intro line tokens rule
  have laid : LaidOut ['Q'] [(2, ['0']), (1, ['Σ']), (2, ['P', 'Σ'])] (trim line.toList) := by
    have shape : trim line.toList = ['Q'] ++ gap 2 ++ (['0'] ++ gap 1 ++ (['Σ'] ++ gap 2 ++ ['P', 'Σ'])) := by
      decide
    rw [shape]
    exact .next (isToken_singleton (by decide)) (by decide) (.next (isToken_singleton (by decide)) (by decide)
      (.next (isToken_singleton (by decide)) (by decide) (.last ⟨by decide, by decide⟩)))
  have form : LineForm (trim line.toList) tokens := .moveless laid (by decide)
  have holds : ofLine? line = some rule := by decide +kernel
  exact ⟨form, holds, (ofLine?_grammar line).2 tokens rule form holds⟩

end TapeMachine
