import Mathlib.Data.List.Forall2
import TapeMachine.Proofs.PrintedTable
import TapeMachine.Proofs.SpacedLetters

namespace TapeMachine

namespace Text

/-- A text in small letters throughout. -/
def small (text : String) : String := String.ofList (lower text.toList)

theorem toList_small (text : String) : (small text).toList = lower text.toList := String.toList_ofList

theorem lower_lower (text : List Char) : lower (lower text) = lower text := lower_eq_self_of_mem_lower fun _ => id

theorem lower_eq_nil_iff {text : List Char} : lower text = [] ↔ text = [] := by
  cases text with
  | nil => simp [lower, lowerAfter]
  | cons c rest => exact iff_of_false (lowerAfter_ne_nil [] c rest) (List.cons_ne_nil c rest)

theorem head?_lower_iff {white : Char} (isWhite : isWhitespace white = true) {text : List Char} :
    (lower text).head? = some white ↔ text.head? = some white := by
  refine ⟨head?_of_isWhitespace_of_head?_lower isWhite, fun atHead => ?_⟩
  obtain ⟨rest, rfl⟩ := List.head?_eq_some_iff.mp atHead
  rw [lower, lowerAfter_white_cons isWhite]
  rfl

/-- White space that is dropped at the start is the same before and after the letters are made small. -/
theorem dropWhile_lower {drops : Char → Bool} (white : ∀ c, drops c = true → isWhitespace c = true) (text : List Char) :
    (lower text).dropWhile drops = lower (text.dropWhile drops) := by
  induction text with
  | nil => rfl
  | cons c rest ih =>
    by_cases dropped : drops c = true
    · rw [lower, lowerAfter_white_cons (white c dropped), List.dropWhile_cons_of_pos dropped,
        List.dropWhile_cons_of_pos dropped, ih]
    · obtain ⟨d, others, shape⟩ := List.exists_cons_of_ne_nil (lowerAfter_ne_nil [] c rest)
      have kept : ¬ drops d = true := by
        intro again
        have atHead : (lower (c :: rest)).head? = some d := congrArg List.head? shape
        have same := head?_of_isWhitespace_of_head?_lower (white d again) atHead
        exact dropped (Option.some.inj same ▸ again)
      rw [List.dropWhile_cons_of_neg dropped, lower, shape, List.dropWhile_cons_of_neg kept]

theorem trimStart_lower (text : List Char) : trimStart (lower text) = lower (trimStart text) :=
  dropWhile_lower (fun _ => id) text

theorem trimEnd_lower (text : List Char) : trimEnd (lower text) = lower (trimEnd text) := by
  rw [trimEnd_eq_rdropWhile, trimEnd_eq_rdropWhile]
  induction text using List.reverseRecOn with
  | nil => rfl
  | append_singleton text c ih =>
    by_cases white : isWhitespace c = true
    · rw [lower_append_white white, List.rdropWhile_concat_pos _ _ _ white]
      exact (List.rdropWhile_concat_pos _ _ _ white).trans ih
    · rw [List.rdropWhile_concat_neg _ _ _ white, List.rdropWhile_eq_self_iff]
      intro nonempty atLast
      have isLast := getLast?_of_isWhitespace_of_getLast?_lowerAfter atLast (List.getLast?_eq_some_getLast nonempty)
      rw [List.getLast?_concat, Option.some.injEq] at isLast
      exact white (isLast ▸ atLast)

theorem trim_lower (text : List Char) : trim (lower text) = lower (trim text) := by
  rw [trim, trimStart_lower, trimEnd_lower, trim]

/-- The letters that decide over a sigma stand before the first space, and no gap is closed there. -/
theorem meetsCased_collapseGap (text : List Char) : meetsCased (collapseGap text) = meetsCased text := by
  induction text with
  | nil => rfl
  | cons c rest ih =>
    by_cases space : c = ' '
    · subst space
      have nothing (others : List Char) : meetsCased (' ' :: others) = meetsCased [] :=
        meetsCased_append_white (by decide) [] others
      rw [collapseGap, nothing rest]
      split
      · exact nothing _
      · exact nothing _
    · rw [collapseGap, if_neg fun gap => space gap.1]
      unfold meetsCased at ih ⊢
      rw [List.dropWhile_cons, List.dropWhile_cons]
      split
      · exact ih
      · rfl

theorem lowerAmid_collapseGap (before : List Char) (c : Char) (after : List Char) :
    lowerAmid before c (collapseGap after) = lowerAmid before c after := by
  simp only [lowerAmid, lowerSigma, meetsCased_collapseGap]

theorem collapseGap_lowerAfter (before text : List Char) :
    collapseGap (lowerAfter before text) = lowerAfter before (collapseGap text) := by
  have white : isWhitespace ' ' = true := by decide
  induction text generalizing before with
  | nil => rfl
  | cons c rest ih =>
    by_cases space : c = ' '
    · subst space
      rw [lowerAfter_white_cons white]
      by_cases wide : rest.head? = some ' '
      · have spaces : ∀ c : Char, decide (c = ' ') = true → isWhitespace c = true := by
          intro c isSpace
          rw [of_decide_eq_true isSpace]
          exact white
        rw [collapseGap, if_pos ⟨rfl, (head?_lower_iff white).mpr wide⟩, collapseGap, if_pos ⟨rfl, wide⟩,
          lowerAfter_white_cons white, dropWhile_lower spaces]
      · rw [collapseGap_space fun atHead => wide ((head?_lower_iff white).mp atHead), collapseGap_space wide,
          lowerAfter_white_cons white]
        exact congrArg (' ' :: ·) (ih [])
    · have unspaced : ' ' ∉ lowerAmid before c rest :=
        fun member => space (eq_of_isWhitespace_of_mem_lowerAmid white member).symm
      rw [lowerAfter_cons, collapseGap_append unspaced, ih, collapseGap, if_neg fun gap => space gap.1, lowerAfter_cons,
        lowerAmid_collapseGap]

end Text

open Text

/-- A line in small letters is cut into the same tokens. -/
theorem lineTokens_lower (line : List Char) : lineTokens (lower line) = lineTokens line := by
  have closed : collapseGap (lower (trim line)) = lower (collapseGap (trim line)) := collapseGap_lowerAfter [] _
  rw [lineTokens, trim_lower, closed, lower_lower, lineTokens]

/-- White space that does not end a line. -/
def IsMargin (text : List Char) : Prop := ∀ c ∈ text, isWhitespace c = true ∧ c ≠ '\n'

/-- A line with a margin on either side, which may be empty. -/
def Margined (line margined : String) : Prop :=
  ∃ left right, IsMargin left ∧ IsMargin right ∧ margined.toList = left ++ line.toList ++ right

/-- What stands for a character where lines end in a carriage return and a line feed. -/
def Text.returned (c : Char) : List Char := if c = '\n' then ['\r', '\n'] else [c]

/-- A text with a carriage return before every line feed. -/
def Text.withReturns (text : String) : String := String.ofList (text.toList.flatMap returned)

theorem IsMargin.nil : IsMargin [] := nofun

theorem IsMargin.lineFeed_not_mem {margin : List Char} (isMargin : IsMargin margin) : '\n' ∉ margin :=
  fun member => (isMargin '\n' member).2 rfl

theorem IsMargin.trim_append {left right : List Char} (onLeft : IsMargin left) (onRight : IsMargin right)
    (line : List Char) : trim (left ++ line ++ right) = trim line := by
  have dropLeft : trimStart (left ++ line ++ right) = trimStart (line ++ right) := by
    rw [List.append_assoc]
    exact List.dropWhile_append_of_pos fun c member => (onLeft c member).1
  have dropRight (kept : List Char) : trimEnd (kept ++ right) = trimEnd kept := by
    unfold trimEnd
    rw [List.reverse_append, List.dropWhile_append_of_pos]
    exact fun c member => (onRight c (List.mem_reverse.mp member)).1
  rw [trim, dropLeft, trimStart, List.dropWhile_append]
  split
  · -- The line is white throughout, and so is what follows it.
    rename_i white
    have nothing : trimStart line = [] := List.isEmpty_iff.mp white
    have nothingBehind : right.dropWhile isWhitespace = [] :=
      List.dropWhile_eq_nil_iff.mpr fun c member => (onRight c member).1
    rw [trim, nothing, nothingBehind]
  · exact dropRight _

theorem Margined.trim_eq {line margined : String} (isMargined : Margined line margined) :
    trim margined.toList = trim line.toList := by
  obtain ⟨left, right, onLeft, onRight, whole⟩ := isMargined
  rw [whole, onLeft.trim_append onRight]

theorem Margined.lineFeed_not_mem {line margined : String} (isMargined : Margined line margined)
    (oneLine : '\n' ∉ line.toList) : '\n' ∉ margined.toList := by
  obtain ⟨left, right, onLeft, onRight, whole⟩ := isMargined
  rw [whole, List.mem_append, List.mem_append]
  rintro ((within | within) | within)
  · exact onLeft.lineFeed_not_mem within
  · exact oneLine within
  · exact onRight.lineFeed_not_mem within

/-- Another way to write a line. It holds the same rule, or none, and `change` leads to what is left of it
when it is trimmed. -/
structure Rewrites (change : String → String) (line other : String) : Prop where
  rule : Rule.ofLine? other = Rule.ofLine? line
  white : trim other.toList = [] ↔ trim line.toList = []
  content : String.ofList (trim other.toList) = change (String.ofList (trim line.toList))

theorem rewrites_small (line : String) : Rewrites small line (small line) := by
  constructor
  · rw [Rule.ofLine?, toList_small, lineTokens_lower, Rule.ofLine?]
  · rw [toList_small, trim_lower, lower_eq_nil_iff]
  · rw [toList_small, trim_lower, small, String.toList_ofList]

theorem Margined.rewrites {line margined : String} (isMargined : Margined line margined) :
    Rewrites id line margined := by
  have same := isMargined.trim_eq
  constructor
  · rw [Rule.ofLine?, lineTokens, same, Rule.ofLine?, lineTokens]
  · rw [same]
  · rw [same, id]

namespace Table

theorem lines_small (text : String) : lines (small text) = (lines text).map small := by
  rw [lines, toList_small, splitOn_lower (by decide), lines, List.map_map, List.map_map]
  refine List.map_congr_left fun line _ => ?_
  rw [Function.comp_apply, Function.comp_apply, small, String.toList_ofList]

theorem forall₂_splitOn_returned (text : List Char) :
    List.Forall₂ (fun line longer => ∃ right, IsMargin right ∧ longer = line ++ right)
      (text.splitOn '\n') ((text.flatMap returned).splitOn '\n') := by
  induction text with
  | nil => exact .cons ⟨[], .nil, rfl⟩ .nil
  | cons c rest ih =>
    rw [List.flatMap_cons, List.splitOn_cons_eq_if_modifyHead]
    by_cases ends : c = '\n'
    · have isMargin : IsMargin ['\r'] := List.forall_mem_singleton.mpr (by decide)
      have first : (returned c ++ rest.flatMap returned).splitOn '\n' =
          ['\r'] :: (rest.flatMap returned).splitOn '\n' := by
        have onLine : '\n' ∉ ['\r'] := by decide
        rw [returned, if_pos ends]
        exact List.splitOn_append_cons_self_of_not_mem onLine _
      rw [if_pos (by simpa using ends), first]
      exact .cons ⟨['\r'], isMargin, rfl⟩ ih
    · have first : (returned c ++ rest.flatMap returned).splitOn '\n' =
          ((rest.flatMap returned).splitOn '\n').modifyHead (c :: ·) := by
        rw [returned, if_neg ends, List.singleton_append, List.splitOn_cons_eq_if_modifyHead, if_neg (by simpa using ends)]
      rw [if_neg (by simpa using ends), first]
      -- The character goes in front of both first lines.
      generalize rest.splitOn '\n' = before at ih
      generalize (rest.flatMap returned).splitOn '\n' = after at ih
      cases ih with
      | nil => exact .nil
      | cons longer later =>
        obtain ⟨right, isMargin, rfl⟩ := longer
        exact .cons ⟨right, isMargin, rfl⟩ later

theorem margined_lines_withReturns (text : String) : List.Forall₂ Margined (lines text) (lines (withReturns text)) := by
  rw [lines, lines, withReturns, String.toList_ofList, List.forall₂_map_left_iff, List.forall₂_map_right_iff]
  refine (forall₂_splitOn_returned text.toList).imp ?_
  rintro line _ ⟨right, isMargin, rfl⟩
  exact ⟨[], right, .nil, isMargin, by simp⟩

theorem lines_of_margined {text : String} {others : List String} (margined : List.Forall₂ Margined (lines text) others) :
    lines ("\n".intercalate others) = others := by
  have nonempty : lines text ≠ [] := by simp [lines]
  have oneLine : ∀ line ∈ lines text, '\n' ∉ line.toList := fun _ => lineFeed_not_mem_lines
  generalize lines text = texts at margined nonempty oneLine
  apply lines_intercalate
  · rintro rfl
    cases margined
    exact nonempty rfl
  · clear nonempty
    induction margined with
    | nil => simp
    | cons isMargined _ ih =>
      rw [List.forall_mem_cons] at oneLine ⊢
      exact ⟨isMargined.lineFeed_not_mem oneLine.1, ih oneLine.2⟩

section

variable {change : String → String} {texts others : List String}

theorem filterMap_of_rewrites (rewritten : List.Forall₂ (Rewrites change) texts others) :
    others.filterMap Rule.ofLine? = texts.filterMap Rule.ofLine? := by
  induction rewritten with
  | nil => rfl
  | cons rewrites _ ih => rw [List.filterMap_cons, List.filterMap_cons, rewrites.rule, ih]

theorem mapError_map {Fault Other Value Answer : Type} (read : Value → Answer) (report : Fault → Other)
    (answer : Except Fault Value) : (read <$> answer).mapError report = read <$> answer.mapError report := by
  cases answer <;> rfl

theorem strictRules_of_rewrites (rewritten : List.Forall₂ (Rewrites change) texts others) (number : Nat) :
    strictRules number others =
      (strictRules number texts).mapError fun fault => ⟨fault.line, change fault.content⟩ := by
  induction rewritten generalizing number with
  | nil => rfl
  | @cons line other texts others rewrites _ ih =>
    rw [strictRules, strictRules, rewrites.rule]
    by_cases white : trim line.toList = []
    · rw [if_pos (List.isEmpty_iff.mpr white), if_pos (List.isEmpty_iff.mpr (rewrites.white.mpr white)), ih]
    · have marked : ¬ trim other.toList = [] := fun whiteOther => white (rewrites.white.mp whiteOther)
      rw [if_neg (by simpa using marked), if_neg (by simpa using white)]
      cases Rule.ofLine? line with
      | none =>
        rw [rewrites.content]
        rfl
      | some rule =>
        dsimp only
        rw [ih, mapError_map]

end

theorem ofText_of_rewrites {change : String → String} {text other : String}
    (rewritten : List.Forall₂ (Rewrites change) (lines text) (lines other)) : ofText other = ofText text :=
  congrArg Table.mk (filterMap_of_rewrites rewritten)

theorem ofTextIn_strict_of_rewrites {change : String → String} {text other : String}
    (rewritten : List.Forall₂ (Rewrites change) (lines text) (lines other)) :
    ofTextIn .strict other =
      (ofTextIn .strict text).mapError fun fault => ⟨fault.line, change fault.content⟩ := by
  rw [ofTextIn, ofTextIn, ofTextStrict, ofTextStrict, mapError_map, strictRules_of_rewrites rewritten]

theorem ofTextIn_strict_of_margined {text other : String}
    (margined : List.Forall₂ Margined (lines text) (lines other)) : ofTextIn .strict other = ofTextIn .strict text := by
  rw [ofTextIn_strict_of_rewrites (margined.imp fun _ _ => Margined.rewrites)]
  cases ofTextIn .strict text <;> rfl

theorem rewrites_lines_small (text : String) : List.Forall₂ (Rewrites small) (lines text) (lines (small text)) := by
  rw [lines_small, List.forall₂_map_right_iff, List.forall₂_same]
  exact fun line _ => rewrites_small line

/-- To read a text, it makes no difference whether its letters are small, how its lines end, and how wide
the margins are. The strict mode refuses the same line, with what stands on it in small letters if the text is. -/
theorem ofText_case_and_margins (text : String) :
    (ofText (small text) = ofText text ∧ ofText (withReturns text) = ofText text ∧
      ∀ others, List.Forall₂ Margined (lines text) others → ofText ("\n".intercalate others) = ofText text) ∧
    ofTextIn .strict (small text) =
        ((ofTextIn .strict text).mapError fun fault => ⟨fault.line, small fault.content⟩) ∧
      ofTextIn .strict (withReturns text) = ofTextIn .strict text ∧
      ∀ others, List.Forall₂ Margined (lines text) others →
        ofTextIn .strict ("\n".intercalate others) = ofTextIn .strict text := by
  have withMargins {others : List String} (margined : List.Forall₂ Margined (lines text) others) :
      List.Forall₂ Margined (lines text) (lines ("\n".intercalate others)) := by
    rwa [lines_of_margined margined]
  have sameRules {other : String} (margined : List.Forall₂ Margined (lines text) (lines other)) :
      ofText other = ofText text := ofText_of_rewrites (margined.imp fun _ _ => Margined.rewrites)
  have returns := margined_lines_withReturns text
  have inSmall := rewrites_lines_small text
  exact ⟨⟨ofText_of_rewrites inSmall, sameRules returns, fun others margined => sameRules (withMargins margined)⟩,
    ofTextIn_strict_of_rewrites inSmall, ofTextIn_strict_of_margined returns,
    fun others margined => ofTextIn_strict_of_margined (withMargins margined)⟩

/-- Margins of several widths around a final sigma and around a dotted capital I, which is two characters
when it is small and so no symbol in either case. -/
theorem ofText_case_and_margins_dotted :
    let text := "QΣ 0 1 R P\nQ İ 1 R P"
    let others := ["\u3000QΣ 0 1 R P\t\r", "\x0bQ İ 1 R P\u00a0"]
    List.Forall₂ Margined (lines text) others ∧
      ofText ("\n".intercalate others) = ⟨[⟨"qς", '0', '1', .right, "p"⟩]⟩ ∧
      ofTextIn .strict ("\n".intercalate others) = .error ⟨2, "Q İ 1 R P"⟩ := by
  intro text others
  have split : lines text = ["QΣ 0 1 R P", "Q İ 1 R P"] := by decide
  have margined : List.Forall₂ Margined (lines text) others := by
    rw [split]
    refine .cons ⟨['\u3000'], ['\t', '\r'], ?_, ?_, by decide⟩ (.cons ⟨['\x0b'], ['\u00a0'], ?_, ?_, by decide⟩ .nil)
    · exact List.forall_mem_singleton.mpr (by decide)
    · exact List.forall_mem_cons.mpr ⟨by decide, List.forall_mem_singleton.mpr (by decide)⟩
    · exact List.forall_mem_singleton.mpr (by decide)
    · exact List.forall_mem_singleton.mpr (by decide)
  obtain ⟨⟨_, _, sameRules⟩, _, _, sameAnswer⟩ := ofText_case_and_margins text
  refine ⟨margined, ?_, ?_⟩
  · rw [sameRules others margined]
    decide +kernel
  · rw [sameAnswer others margined]
    decide +kernel

end Table

end TapeMachine
