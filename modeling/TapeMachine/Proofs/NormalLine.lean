import Mathlib.Data.List.DropRight
import TapeMachine.Proofs.SmallLetters
import TapeMachine.Rule.Line

namespace TapeMachine

namespace Text

/-- A text without white space at either end. -/
structure Trimmed (text : List Char) : Prop where
  head : ∀ c, text.head? = some c → isWhitespace c = false
  last : ∀ c, text.getLast? = some c → isWhitespace c = false

theorem trimEnd_eq_rdropWhile (text : List Char) : trimEnd text = text.rdropWhile isWhitespace := rfl

theorem Trimmed.trim_eq {text : List Char} (trimmed : Trimmed text) : trim text = text := by
  have start : trimStart text = text := by
    cases text with
    | nil => rfl
    | cons c rest =>
      have bare := trimmed.head c rfl
      simp [trimStart, bare]
  rw [trim, start, trimEnd_eq_rdropWhile, List.rdropWhile_eq_self_iff]
  intro nonempty
  simp [trimmed.last _ (List.getLast?_eq_some_getLast nonempty)]

theorem trimmed_trim (text : List Char) : Trimmed (trim text) := by
  constructor
  · intro c atHead
    obtain ⟨rest, shape⟩ := List.head?_eq_some_iff.mp atHead
    -- What is left after both ends are cut begins as what is left after the first.
    obtain ⟨cut, whole⟩ : trim text <+: trimStart text := List.rdropWhile_prefix isWhitespace _
    have started : (text.dropWhile isWhitespace).head? = some c := by
      change (trimStart text).head? = some c
      rw [← whole, shape]
      rfl
    have bare := List.head?_dropWhile_not isWhitespace text
    rwa [started] at bare
  · intro c atLast
    have nonempty : trim text ≠ [] := by
      rintro empty
      rw [empty] at atLast
      cases atLast
    have bare := List.rdropWhile_last_not isWhitespace (trimStart text) nonempty
    rw [List.getLast?_eq_some_getLast nonempty] at atLast
    rw [← Option.some.inj atLast]
    simpa [trim, trimEnd_eq_rdropWhile] using bare

theorem mem_of_mem_trim {text : List Char} {c : Char} (member : c ∈ trim text) : c ∈ text :=
  (List.dropWhile_sublist _).subset ((List.rdropWhile_prefix isWhitespace _).subset member)

theorem mem_of_mem_collapseGap {text : List Char} {c : Char} (member : c ∈ collapseGap text) : c ∈ text := by
  induction text with
  | nil => cases member
  | cons first rest ih =>
    unfold collapseGap at member
    split at member
    · rename_i gap
      rw [gap.1]
      rcases List.mem_cons.mp member with here | later
      · exact List.mem_cons.mpr (Or.inl here)
      · exact List.mem_cons_of_mem _ ((List.dropWhile_sublist _).subset later)
    · rcases List.mem_cons.mp member with here | later
      · exact List.mem_cons.mpr (Or.inl here)
      · exact List.mem_cons_of_mem _ (ih later)

theorem head?_collapseGap (text : List Char) : (collapseGap text).head? = text.head? := by
  cases text with
  | nil => rfl
  | cons first rest =>
    unfold collapseGap
    split
    · rename_i gap
      rw [gap.1]
      rfl
    · rfl

theorem getLast?_collapseGap (text : List Char) : (collapseGap text).getLast? = text.getLast? := by
  induction text with
  | nil => rfl
  | cons first rest ih =>
    unfold collapseGap
    split
    · rename_i gap
      rw [List.getLast?_cons, List.getLast?_cons, gap.1]
      have parts : rest.takeWhile (· = ' ') ++ rest.dropWhile (· = ' ') = rest := List.takeWhile_append_dropWhile
      cases behind : rest.dropWhile (· = ' ') with
      | nil =>
        -- Nothing but spaces follows, so the last of them is a space too.
        rw [behind, List.append_nil] at parts
        have spaces : ∀ c ∈ rest, c = ' ' := fun c member =>
          of_decide_eq_true (List.mem_takeWhile_imp (p := (· = ' ')) (parts ▸ member))
        cases last : rest.getLast? with
        | none => rfl
        | some c => rw [spaces c (List.mem_of_getLast? last)]; rfl
      | cons next more =>
        rw [behind] at parts
        rw [← parts, List.getLast?_append_of_ne_nil _ (List.cons_ne_nil next more)]
    · rw [List.getLast?_cons, List.getLast?_cons, ih]

theorem Trimmed.collapseGap {text : List Char} (trimmed : Trimmed text) : Trimmed (collapseGap text) :=
  ⟨fun c atHead => trimmed.head c (head?_collapseGap text ▸ atHead),
    fun c atLast => trimmed.last c (getLast?_collapseGap text ▸ atLast)⟩

theorem Trimmed.lower {text : List Char} (trimmed : Trimmed text) : Trimmed (lower text) := by
  constructor
  · intro c atHead
    by_contra white
    rw [Bool.not_eq_false] at white
    rw [trimmed.head c (head?_of_isWhitespace_of_head?_lower white atHead)] at white
    contradiction
  · intro c atLast
    by_contra white
    rw [Bool.not_eq_false] at white
    rw [trimmed.last c (getLast?_of_isWhitespace_of_getLast?_lowerAfter white atLast)] at white
    contradiction

/-- Tokens on one line, with a space between each two. -/
def spaced (tokens : List (List Char)) : List Char := [' '].intercalate tokens

theorem spaced_cons_cons (token next : List Char) (tokens : List (List Char)) :
    spaced (token :: next :: tokens) = token ++ ' ' :: spaced (next :: tokens) := by
  simp [spaced, List.intercalate]

theorem spaced_singleton (token : List Char) : spaced [token] = token := by
  simp [spaced, List.intercalate]

/-- A token that a reader can see: it has characters, and no space among them. -/
def IsToken (token : List Char) : Prop := token ≠ [] ∧ ' ' ∉ token

theorem IsToken.head?_append {token : List Char} (isToken : IsToken token) (rest : List Char) :
    (token ++ rest).head? ≠ some ' ' := by
  obtain ⟨nonempty, unspaced⟩ := isToken
  rw [List.head?_append_of_ne_nil _ nonempty]
  exact fun atHead => unspaced (List.mem_of_head? atHead)

theorem IsToken.head?_spaced {token : List Char} (isToken : IsToken token) (tokens : List (List Char)) :
    (spaced (token :: tokens)).head? ≠ some ' ' := by
  cases tokens with
  | nil => simpa [spaced_singleton] using isToken.head?_append []
  | cons next tokens =>
    rw [spaced_cons_cons]
    exact isToken.head?_append _

theorem collapseGap_append {token : List Char} (unspaced : ' ' ∉ token) (rest : List Char) :
    collapseGap (token ++ rest) = token ++ collapseGap rest := by
  induction token with
  | nil => rfl
  | cons c token ih =>
    have visible : c ≠ ' ' := fun space => unspaced (space ▸ List.mem_cons_self ..)
    rw [List.cons_append, collapseGap, if_neg (fun gap => visible gap.1),
      ih fun member => unspaced (List.mem_cons_of_mem _ member)]
    rfl

theorem collapseGap_space {rest : List Char} (visible : rest.head? ≠ some ' ') :
    collapseGap (' ' :: rest) = ' ' :: collapseGap rest := by
  rw [collapseGap, if_neg (fun gap => visible gap.2)]

/-- So many spaces. -/
def gap (width : Nat) : List Char := List.replicate width ' '

theorem collapseGap_gap (width : Nat) {rest : List Char} (visible : rest.head? ≠ some ' ') :
    collapseGap (gap (width + 2) ++ rest) = ' ' :: rest := by
  have spaces : (gap (width + 1) ++ rest).dropWhile (· = ' ') = rest.dropWhile (· = ' ') := by
    refine List.dropWhile_append_of_pos ?_
    intro c member
    simp [List.eq_of_mem_replicate member]
  have stops : rest.dropWhile (· = ' ') = rest := by
    cases rest with
    | nil => rfl
    | cons c rest => simpa using fun space => visible (congrArg some space)
  change collapseGap (' ' :: (gap (width + 1) ++ rest)) = _
  rw [collapseGap, if_pos ⟨rfl, rfl⟩, spaces, stops]

theorem collapseGap_spaced {tokens : List (List Char)} (full : ∀ token ∈ tokens, IsToken token) :
    collapseGap (spaced tokens) = spaced tokens := by
  induction tokens with
  | nil => rfl
  | cons token tokens ih =>
    have unspaced := (full token (List.mem_cons_self ..)).2
    have rest := ih fun other member => full other (List.mem_cons_of_mem _ member)
    cases tokens with
    | nil =>
      rw [spaced_singleton]
      simpa [collapseGap] using collapseGap_append unspaced []
    | cons next tokens =>
      have visible := (full next (by simp)).head?_spaced tokens
      rw [spaced_cons_cons, collapseGap_append unspaced, collapseGap_space visible, rest]

/-- The one empty token of a line is a gap, and closing the gap loses it. -/
theorem collapseGap_spaced_empty (front : List (List Char)) {next : List Char} (rest : List (List Char))
    (some : front ≠ []) (full : ∀ token ∈ front, IsToken token) (isToken : IsToken next) :
    collapseGap (spaced (front ++ [] :: next :: rest)) = spaced (front ++ next :: rest) := by
  induction front with
  | nil => exact absurd rfl some
  | cons token front ih =>
    have unspaced := (full token (List.mem_cons_self ..)).2
    cases front with
    | nil =>
      have closed := collapseGap_gap 0 (isToken.head?_spaced rest)
      simp only [List.cons_append, List.nil_append, spaced_cons_cons]
      rw [collapseGap_append unspaced]
      exact congrArg (token ++ ·) closed
    | cons second front =>
      have visible := (full second (by simp)).head?_spaced (front ++ [] :: next :: rest)
      have later := ih (List.cons_ne_nil second front) fun other member => full other (List.mem_cons_of_mem _ member)
      simp only [List.cons_append, spaced_cons_cons token second] at later ⊢
      rw [collapseGap_append unspaced, collapseGap_space visible, later]

/-- No piece of a text that is cut at a character has that character. -/
theorem not_mem_of_mem_splitOn {separator : Char} {text piece : List Char} (cut : piece ∈ text.splitOn separator) :
    separator ∉ piece := by
  induction text generalizing piece with
  | nil =>
    rw [List.splitOn_nil, List.mem_singleton] at cut
    simp [cut]
  | cons c rest ih =>
    rw [List.splitOn_cons_eq_if_modifyHead] at cut
    split at cut
    · rcases List.mem_cons.mp cut with first | later
      · simp [first]
      · exact ih later
    · rename_i other
      cases pieces : rest.splitOn separator with
      | nil => simp [pieces] at cut
      | cons head tail =>
        rw [pieces] at cut ih
        rcases List.mem_cons.mp cut with first | later
        · rw [first, List.mem_cons, not_or]
          exact ⟨fun same => other (by simp [same]), ih (List.mem_cons_self ..)⟩
        · exact ih (List.mem_cons_of_mem _ later)

end Text

open Text

/-- The line that the tokens of `line` are cut from: no white ends, the first gap closed, small
letters. -/
def normalLine (line : List Char) : List Char := lower (collapseGap (trim line))

theorem lineTokens_eq_splitOn (line : List Char) : lineTokens line = (normalLine line).splitOn ' ' := rfl

theorem trimmed_normalLine (line : List Char) : Trimmed (normalLine line) :=
  (trimmed_trim line).collapseGap.lower

theorem mem_of_isWhitespace_of_mem_normalLine {line : List Char} {c : Char} (white : isWhitespace c = true)
    (member : c ∈ normalLine line) : c ∈ line :=
  mem_of_mem_trim (mem_of_mem_collapseGap (mem_of_isWhitespace_of_mem_lowerAfter white member))

/-- Read again, a normal line gives the tokens that are left when its gap is closed. -/
theorem lineTokens_normalLine (line : List Char) :
    lineTokens (normalLine line) = (collapseGap (normalLine line)).splitOn ' ' := by
  have lowered : lower (collapseGap (normalLine line)) = collapseGap (normalLine line) :=
    lower_eq_self_of_mem_lower fun _ member => mem_of_mem_collapseGap member
  rw [lineTokens, (trimmed_normalLine line).trim_eq, lowered]

theorem Direction.token_ofToken (token : String) : (Direction.ofToken token).token = token := by
  unfold Direction.ofToken
  split
  · exact Eq.symm ‹_›
  · split
    · exact Eq.symm ‹_›
    · rfl

theorem Direction.token_eq_empty_iff {move : Direction} : move.token = "" ↔ move = .unknown "" := by
  cases move <;> simp [Direction.token]

namespace Rule

/-- The five tokens that a line must have to hold a rule. -/
structure HasTokens (rule : Rule) (line start move next : List Char) : Prop where
  tokens : lineTokens line = [start, [rule.read], [rule.write], move, next]
  start : rule.start = String.ofList start
  move : rule.move = Direction.ofToken (String.ofList move)
  next : rule.next = String.ofList next

theorem hasTokens_of_ofLine? {line : String} {rule : Rule} (holds : ofLine? line = some rule) :
    ∃ start move next, rule.HasTokens line.toList start move next := by
  unfold ofLine? at holds
  generalize atLine : lineTokens line.toList = tokens at holds
  unfold ofTokens? at holds
  split at holds
  · cases Option.some.inj holds
    exact ⟨_, _, _, atLine, rfl, rfl, rfl⟩
  · cases holds

namespace HasTokens

variable {rule : Rule} {line start move next : List Char}

theorem normalLine_eq (has : rule.HasTokens line start move next) :
    normalLine line = spaced [start, [rule.read], [rule.write], move, next] := by
  rw [← has.tokens, lineTokens_eq_splitOn, spaced, List.intercalate_splitOn]

/-- A rule prints as the normal line that it was read from. -/
theorem text_eq (has : rule.HasTokens line start move next) : rule.text.toList = normalLine line := by
  have printed : [rule.start, rule.read.toString, rule.write.toString, rule.move.token, rule.next].map String.toList =
      [start, [rule.read], [rule.write], move, next] := by
    simp [has.start, has.move, has.next, Direction.token_ofToken, Char.toString]
  rw [Rule.text, String.toList_intercalate, printed, has.normalLine_eq]
  rfl

theorem unspaced (has : rule.HasTokens line start move next) {token : List Char}
    (member : token ∈ [start, [rule.read], [rule.write], move, next]) : ' ' ∉ token := by
  rw [← has.tokens, lineTokens_eq_splitOn] at member
  exact not_mem_of_mem_splitOn member

theorem isToken (has : rule.HasTokens line start move next) {token : List Char}
    (member : token ∈ [start, [rule.read], [rule.write], move, next]) (nonempty : token ≠ []) : IsToken token :=
  ⟨nonempty, has.unspaced member⟩

/-- The first and the last token are not empty, since the line has no white ends. -/
theorem start_ne_nil (has : rule.HasTokens line start move next) : start ≠ [] := by
  rintro rfl
  have trimmed := trimmed_normalLine line
  rw [has.normalLine_eq, spaced_cons_cons] at trimmed
  exact absurd (trimmed.head ' ' rfl) (by decide)

theorem next_ne_nil (has : rule.HasTokens line start move next) : next ≠ [] := by
  rintro rfl
  have trimmed := trimmed_normalLine line
  have ends : normalLine line = spaced [start, [rule.read], [rule.write], move] ++ [' '] := by
    simp [has.normalLine_eq, spaced_cons_cons, spaced_singleton]
  exact absurd (trimmed.last ' ' (by rw [ends, List.getLast?_concat])) (by decide)

theorem isToken_other (has : rule.HasTokens line start move next) :
    ∀ token ∈ [start, [rule.read], [rule.write], next], IsToken token := by
  simp only [List.forall_mem_cons]
  exact ⟨has.isToken (by simp) has.start_ne_nil, has.isToken (by simp) (List.cons_ne_nil _ _),
    has.isToken (by simp) (List.cons_ne_nil _ _), has.isToken (by simp) has.next_ne_nil, by simp⟩

end HasTokens

/-- A rule that was read from a line can be read from its own text, unless its move is the empty
token: then its text has a gap there, and closing it leaves four tokens. -/
theorem ofLine?_text {line : String} {rule : Rule} (holds : ofLine? line = some rule) :
    ofLine? rule.text = if rule.move = .unknown "" then none else some rule := by
  obtain ⟨start, move, next, has⟩ := hasTokens_of_ofLine? holds
  have printed : ofLine? rule.text = ofTokens? ((collapseGap (normalLine line.toList)).splitOn ' ') := by
    rw [ofLine?, has.text_eq, lineTokens_normalLine]
  have moveToken : rule.move.token = String.ofList move := by rw [has.move, Direction.token_ofToken]
  rw [printed, has.normalLine_eq]
  cases move with
  | nil =>
    have other := has.isToken_other
    have closed : collapseGap (spaced [start, [rule.read], [rule.write], [], next]) =
        spaced [start, [rule.read], [rule.write], next] := by
      refine collapseGap_spaced_empty [start, [rule.read], [rule.write]] [] (List.cons_ne_nil _ _) ?_ ?_
      · intro token member
        exact other token (List.mem_append_left [next] member)
      · exact other next (by simp)
    rw [if_pos (Direction.token_eq_empty_iff.mp moveToken), closed, spaced,
      List.splitOn_intercalate ' ' (fun token member => (other token member).2) (List.cons_ne_nil _ _)]
    rfl
  | cons c more =>
    have full : ∀ token ∈ [start, [rule.read], [rule.write], c :: more, next], IsToken token := by
      intro token member
      by_cases isMove : token = c :: more
      · exact has.isToken member (isMove ▸ List.cons_ne_nil c more)
      · exact has.isToken_other token (by simpa [isMove] using member)
    have named : rule.move ≠ .unknown "" := by
      intro unnamed
      rw [Direction.token_eq_empty_iff.mpr unnamed] at moveToken
      simp at moveToken
    rw [if_neg named, collapseGap_spaced full, spaced,
      List.splitOn_intercalate ' ' (fun token member => (full token member).2) (List.cons_ne_nil _ _)]
    rw [ofTokens?, ← has.start, ← has.move, ← has.next]

end Rule

end TapeMachine
