import TapeMachine.Proofs.PrintedRecord
import TapeMachine.Proofs.PrintedTable
import TapeMachine.Proofs.SpacedLetters

namespace TapeMachine

namespace Text

theorem head?_spaced {token : List Char} (nonempty : token ≠ []) (tokens : List (List Char)) :
    (spaced (token :: tokens)).head? = token.head? := by
  cases tokens with
  | nil => rw [spaced_singleton]
  | cons next tokens => rw [spaced_cons_cons, List.head?_append_of_ne_nil _ nonempty]

theorem getLast?_spaced (tokens : List (List Char)) {token : List Char} (nonempty : token ≠ []) :
    (spaced (tokens ++ [token])).getLast? = token.getLast? := by
  induction tokens with
  | nil => rw [List.nil_append, spaced_singleton]
  | cons first tokens ih =>
    have shape : spaced (first :: tokens ++ [token]) = first ++ ' ' :: spaced (tokens ++ [token]) := by
      cases tokens <;> exact spaced_cons_cons ..
    rw [List.getLast?_eq_some_getLast nonempty] at ih ⊢
    rw [shape, List.getLast?_append, List.getLast?_cons, ih]
    rfl

theorem mem_spaced_iff {tokens : List (List Char)} {c : Char} (visible : c ≠ ' ') :
    c ∈ spaced tokens ↔ ∃ token ∈ tokens, c ∈ token := by
  induction tokens with
  | nil => simp [spaced]
  | cons token tokens ih =>
    cases tokens with
    | nil => simp [spaced_singleton]
    | cons next tokens =>
      rw [spaced_cons_cons, List.mem_append, List.mem_cons, ih, List.exists_mem_cons_iff]
      simp [visible]

end Text

open Text

/-- Small tokens with single spaces between them are cut as they stand. -/
theorem lineTokens_spaced {tokens : List (List Char)} (nonempty : tokens ≠ []) (full : ∀ token ∈ tokens, IsToken token)
    (small : ∀ token ∈ tokens, ∀ c ∈ token, IsSmall c) (trimmed : Trimmed (spaced tokens)) :
    lineTokens (spaced tokens) = tokens := by
  have cut : (spaced tokens).splitOn ' ' = tokens :=
    List.splitOn_intercalate ' ' (fun token member => (full token member).2) nonempty
  have lowered : tokens.map lower = tokens.map id :=
    List.map_congr_left fun token member => lowerAfter_eq_self (small token member)
  rw [lineTokens_eq_map_lower, trimmed.trim_eq, collapseGap_spaced full, cut, lowered, List.map_id]

namespace Rule

/-- What a rule is printed as, part by part. -/
def parts (rule : Rule) : List (List Char) :=
  [rule.start.toList, [rule.read], [rule.write], rule.move.token.toList, rule.next.toList]

/-- What a rule must be like to be read from its own line. -/
structure Printable (rule : Rule) : Prop where
  unbroken : ∀ part ∈ rule.parts, ' ' ∉ part ∧ '\n' ∉ part
  start_ne : rule.start ≠ ""
  move_ne : rule.move.token ≠ ""
  next_ne : rule.next ≠ ""
  head : ∀ c, rule.start.toList.head? = some c → isWhitespace c = false
  last : ∀ c, rule.next.toList.getLast? = some c → isWhitespace c = false
  small : ∀ part ∈ rule.parts, ∀ c ∈ part, IsSmall c

/-- What a rule must be like to stand on some line. Its move may be left out there. -/
structure Expressible (rule : Rule) : Prop where
  small : ∀ part ∈ rule.parts, lower part = part
  unbroken : ∀ part ∈ rule.parts, ' ' ∉ part ∧ '\n' ∉ part
  start_ne : rule.start ≠ ""
  next_ne : rule.next ≠ ""
  head : ∀ c, rule.start.toList.head? = some c → isWhitespace c = false
  last : ∀ c, rule.next.toList.getLast? = some c → isWhitespace c = false
  recognized : rule.move.Recognized

theorem Expressible.printable {rule : Rule} (expressible : rule.Expressible) (named : rule.move ≠ .unknown "") :
    rule.Printable where
  unbroken := expressible.unbroken
  start_ne := expressible.start_ne
  move_ne := fun empty => named (Direction.token_eq_empty_iff.mp empty)
  next_ne := expressible.next_ne
  head := expressible.head
  last := expressible.last
  small := fun part among => lower_eq_self_iff.mp (expressible.small part among)

theorem toList_text (rule : Rule) : rule.text.toList = spaced rule.parts := by
  rw [text, String.toList_intercalate]
  simp only [List.map_cons, List.map_nil, Char.toString, String.toList_singleton]
  rfl

theorem ofTokens?_parts {rule : Rule} (recognized : rule.move.Recognized) : ofTokens? rule.parts = some rule := by
  simp only [parts, ofTokens?, String.ofList_toList, Direction.ofToken_token recognized]

namespace Printable

variable {rule : Rule}

theorem isToken (printable : rule.Printable) : ∀ part ∈ rule.parts, IsToken part := by
  intro part member
  refine ⟨?_, (printable.unbroken part member).1⟩
  have start := printable.start_ne
  have move := printable.move_ne
  have next := printable.next_ne
  simp only [parts, List.mem_cons, List.not_mem_nil, or_false] at member
  rcases member with rfl | rfl | rfl | rfl | rfl <;> simp [*]

theorem trimmed (printable : rule.Printable) : Trimmed (spaced rule.parts) := by
  constructor
  · intro c atHead
    rw [parts, head?_spaced (by simpa using printable.start_ne)] at atHead
    exact printable.head c atHead
  · intro c atLast
    have nonempty : rule.next.toList ≠ [] := by simpa using printable.next_ne
    have ends := getLast?_spaced (rule.parts.take 4) nonempty
    exact printable.last c (ends ▸ atLast)

theorem lineFeed_not_mem_text (printable : rule.Printable) : '\n' ∉ rule.text.toList := by
  rw [toList_text, mem_spaced_iff (by decide)]
  rintro ⟨part, among, member⟩
  exact (printable.unbroken part among).2 member

theorem ofLine?_text (printable : rule.Printable) (recognized : rule.move.Recognized) :
    ofLine? rule.text = some rule := by
  have cut : lineTokens rule.text.toList = rule.parts := by
    rw [toList_text]
    exact lineTokens_spaced (by simp [parts]) printable.isToken printable.small printable.trimmed
  rw [ofLine?, cut, ofTokens?_parts recognized]

end Printable

theorem expressible_of_ofLine? {line : String} {rule : Rule} (holds : ofLine? line = some rule)
    (oneLine : '\n' ∉ line.toList) : rule.Expressible := by
  obtain ⟨start, move, next, has⟩ := hasTokens_of_ofLine? holds
  have printed : rule.parts = [start, [rule.read], [rule.write], move, next] := by
    simp only [parts, has.start, has.move, has.next, Direction.token_ofToken, String.toList_ofList]
  have within : ∀ part ∈ rule.parts, ' ' ∉ part ∧ ∀ c ∈ part, c ∈ normalLine line.toList := by
    intro part among
    have unspaced := has.unspaced (printed ▸ among)
    refine ⟨unspaced, fun c member => ?_⟩
    have visible : c ≠ ' ' := fun space => unspaced (space ▸ member)
    rw [← has.text_eq, toList_text]
    exact (mem_spaced_iff visible).mpr ⟨part, among, member⟩
  have trimmed := trimmed_normalLine line.toList
  rw [← has.text_eq, toList_text] at trimmed
  have startNonempty : rule.start.toList ≠ [] := by simpa [has.start] using has.start_ne_nil
  have nextNonempty : rule.next.toList ≠ [] := by simpa [has.next] using has.next_ne_nil
  constructor
  case small =>
    intro part among
    exact lower_eq_self_of_mem_lower (within part among).2
  case unbroken =>
    intro part among
    refine ⟨(within part among).1, fun member => ?_⟩
    exact oneLine (mem_of_isWhitespace_of_mem_normalLine (by decide) ((within part among).2 _ member))
  case start_ne => simpa using startNonempty
  case next_ne => simpa using nextNonempty
  case head =>
    intro c atHead
    exact trimmed.head c (by rw [parts, head?_spaced startNonempty, atHead])
  case last =>
    intro c atLast
    have ends := getLast?_spaced (rule.parts.take 4) nextNonempty
    exact trimmed.last c (ends.trans atLast)
  case recognized =>
    rw [has.move]
    exact Direction.recognized_ofToken _

/-- What is read from a line can be printed again, unless the move was left out. -/
theorem printable_of_ofLine? {line : String} {rule : Rule} (holds : ofLine? line = some rule)
    (oneLine : '\n' ∉ line.toList) (named : rule.move ≠ .unknown "") : rule.Printable :=
  (expressible_of_ofLine? holds oneLine).printable named

end Rule

namespace Table

variable {table : Table}

/-- A table comes back from its own text exactly if each of its rules is printable, whatever the rules
beside it are. -/
theorem ofText_text_eq_self_iff (recognized : ∀ rule ∈ table.rules, rule.move.Recognized) :
    ofText table.text = table ↔ ∀ rule ∈ table.rules, rule.Printable := by
  constructor
  · intro same rule member
    -- Every rule was read from some line, so only an empty move could be lost when it is read once more.
    have kept := ofText_text_rules table.text
    rw [same, same, eq_comm, List.filter_eq_self] at kept
    obtain ⟨line, among, holds⟩ := exists_line_of_mem_ofText (same.symm ▸ member)
    exact Rule.printable_of_ofLine? holds (lineFeed_not_mem_lines among) (of_decide_eq_true (kept rule member))
  · intro printable
    have oneLine := fun rule member => (printable rule member).lineFeed_not_mem_text
    have again := fun rule member => (printable rule member).ofLine?_text (recognized rule member)
    rw [Table.mk.injEq, ofText_text_of_oneLine oneLine, List.filterMap_congr again, List.filterMap_some]

/-- A line feed within a state is read as the end of a line, and gives two rules here. White space of
another kind and an unknown move come back. -/
theorem ofText_text_eq_self_iff_broken :
    let kept : Table := ⟨[⟨"a\tb", '\r', '☃', .unknown "\t", "ς"⟩]⟩
    let broken : Table := ⟨[⟨"q", '0', '1', .right, "p\np 1 1 l q"⟩]⟩
    (ofText kept.text = kept ∧ ∀ rule ∈ kept.rules, rule.Printable) ∧
      ((ofText broken.text).rules.length = 2 ∧ ¬ ∀ rule ∈ broken.rules, rule.Printable) := by
  intro kept broken
  have recognized : ∀ rule ∈ kept.rules, rule.move.Recognized := by
    rw [List.forall_mem_singleton]
    constructor <;> decide
  have recognized' : ∀ rule ∈ broken.rules, rule.move.Recognized := by
    rw [List.forall_mem_singleton]
    constructor <;> decide
  have same : ofText kept.text = kept := by decide
  have torn : (ofText broken.text).rules.length = 2 := by decide
  refine ⟨⟨same, (ofText_text_eq_self_iff recognized).mp same⟩, torn, fun printable => ?_⟩
  rw [(ofText_text_eq_self_iff recognized').mpr printable] at torn
  exact absurd torn (by decide)

end Table

end TapeMachine
