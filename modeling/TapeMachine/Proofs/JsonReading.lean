import Mathlib.Data.List.TakeWhile
import TapeMachine.Proofs.JsonGrammar
import TapeMachine.Proofs.Outcome

namespace TapeMachine.Json

variable {text rest : List Char}

theorem exists_white_skipSpace (text : List Char) : ∃ gap, White gap ∧ text = gap ++ skipSpace text :=
  ⟨text.takeWhile isSpace, fun _ member => List.mem_takeWhile_imp member, List.takeWhile_append_dropWhile.symm⟩

theorem White.append {gap other : List Char} (white : White gap) (others : White other) : White (gap ++ other) :=
  List.forall_mem_append.mpr ⟨white, others⟩

theorem of_readWord {word : List Char} (read : readWord word text = .ok rest) : text = word ++ rest := by
  fun_induction readWord word text with
  | case1 text => exact Except.ok.inj read
  | case3 letter word text ih => rw [ih read, List.cons_append]
  | case2 | case4 => cases read

theorem of_readDigits {digits : List Char} (read : readDigits text = .ok (digits, rest)) :
    Digits digits ∧ text = digits ++ rest := by
  unfold readDigits at read
  split at read
  · cases read
  · split at read
    case isTrue digit =>
      cases read
      refine ⟨⟨?_, fun c member => List.mem_takeWhile_imp member⟩, List.takeWhile_append_dropWhile.symm⟩
      simp [digit]
    case isFalse => cases read

theorem of_readWhole {whole : List Char} (read : readWhole text = .ok (whole, rest)) :
    Digits whole ∧ (whole.head? = some '0' → whole = ['0']) ∧ text = whole ++ rest := by
  obtain ⟨⟨digits, others⟩, given, read⟩ := bind_eq_ok_iff.mp read
  obtain ⟨isDigits, joined⟩ := of_readDigits given
  dsimp only at read
  split at read
  case isTrue => cases read
  case isFalse noZero =>
    cases read
    exact ⟨isDigits, fun zero => by_contra fun others => noZero ⟨zero, others⟩, joined⟩

theorem of_readFraction {fraction : List Char} (read : readFraction text = .ok (fraction, rest)) :
    ∃ core, FractionWritten fraction core ∧ text = core ++ rest := by
  unfold readFraction at read
  split at read
  · obtain ⟨isDigits, rfl⟩ := of_readDigits read
    exact ⟨_, .point isDigits, rfl⟩
  · cases read
    exact ⟨[], .none, rfl⟩

theorem of_signedDigits {sign negative : Bool} {digits : List Char}
    (read : (sign, ·) <$> readDigits text = .ok (negative, digits, rest)) :
    sign = negative ∧ Digits digits ∧ text = digits ++ rest := by
  obtain ⟨parts, digits, same⟩ := map_eq_ok_iff.mp read
  cases same
  exact ⟨rfl, of_readDigits digits⟩

theorem of_readExponent {negative : Bool} {exponent : List Char}
    (read : readExponent text = .ok (negative, exponent, rest)) :
    ∃ core, ExponentWritten negative exponent core ∧ text = core ++ rest := by
  unfold readExponent at read
  split at read
  · split at read
    case isTrue isLetter =>
      split at read
      all_goals obtain ⟨rfl, isDigits, rfl⟩ := of_signedDigits read
      · exact ⟨_, .minus isLetter isDigits, rfl⟩
      · exact ⟨_, .plus isLetter isDigits, rfl⟩
      · exact ⟨_, .bare isLetter isDigits, rfl⟩
    case isFalse =>
      cases read
      exact ⟨[], .none, rfl⟩
  · cases read
    exact ⟨[], .none, rfl⟩

theorem of_readNumeral {negative : Bool} {numeral : Numeral}
    (read : readNumeral negative text = .ok (numeral, rest)) :
    numeral.negative = negative ∧ ∃ core, numeral.Written core ∧ text = core ++ rest := by
  obtain ⟨⟨whole, behindWhole⟩, atWhole, behind⟩ := bind_eq_ok_iff.mp read
  obtain ⟨⟨fraction, behindFraction⟩, atFraction, behind⟩ := bind_eq_ok_iff.mp behind
  obtain ⟨⟨exponentNegative, exponent, behindExponent⟩, atExponent, same⟩ := bind_eq_ok_iff.mp behind
  obtain ⟨isDigits, noZero, rfl⟩ := of_readWhole atWhole
  obtain ⟨fractionText, isFraction, rfl⟩ := of_readFraction atFraction
  obtain ⟨exponentText, isExponent, rfl⟩ := of_readExponent atExponent
  cases same
  exact ⟨rfl, _, .parts isDigits noZero isFraction isExponent, by simp⟩

theorem of_readPieces {pieces : List Piece} (read : readPieces text = (pieces, .ok rest)) :
    ∃ core, PiecesWritten pieces core ∧ text = core ++ '"' :: rest := by
  fun_induction readPieces text generalizing pieces with
  | case2 text =>
    cases read
    exact ⟨[], .nil, rfl⟩
  | case4 first second third fourth text value spelled others rest readOthers ih =>
    cases read
    obtain ⟨core, isOthers, rfl⟩ := ih readOthers
    exact ⟨_, .unit spelled isOthers, rfl⟩
  | case7 letter text _ notUnit c known others rest readOthers ih =>
    cases read
    obtain ⟨core, isOthers, rfl⟩ := ih readOthers
    exact ⟨_, .escape known isOthers, rfl⟩
  | case10 c text notQuote atEnd _ escape visible others rest readOthers ih =>
    have notBackslash : c ≠ '\\' := by
      intro backslash
      cases text with
      | nil => exact atEnd backslash rfl
      | cons letter text => exact escape letter text backslash rfl
    cases read
    obtain ⟨core, isOthers, rfl⟩ := ih readOthers
    exact ⟨_, .plain notQuote notBackslash visible isOthers, rfl⟩
  | case1 | case3 | case5 | case6 | case8 | case9 => cases read

theorem of_readLiteral {literal : Literal} (read : readLiteral text = (literal, .ok rest)) :
    ∃ core, literal.Written core ∧ '"' :: text = core ++ rest := by
  rw [readLiteral] at read
  cases pieces : readPieces text with
  | mk others outcome =>
    rw [pieces] at read
    cases read
    obtain ⟨core, isInside, rfl⟩ := of_readPieces pieces
    exact ⟨_, .quoted isInside, by simp⟩

theorem nodeOr_eq_ok_iff {outcome : Except Break (Node × List Char)} {node : Node} :
    nodeOr outcome = (node, .ok rest) ↔ outcome = .ok (node, rest) := by
  cases outcome with
  | error cause => simp [nodeOr]
  | ok parts => simp [nodeOr, Prod.ext_iff]

theorem of_wordNode {word : List Char} {node named : Node}
    (read : wordNode named (readWord word text) = (node, .ok rest)) : node = named ∧ text = word ++ rest := by
  obtain ⟨behind, readWord, same⟩ := map_eq_ok_iff.mp (nodeOr_eq_ok_iff.mp read)
  cases same
  exact ⟨rfl, of_readWord readWord⟩

theorem of_numberNode {negative : Bool} {node : Node} (read : numberNode negative text = (node, .ok rest)) :
    ∃ numeral core, node = .number numeral ∧ numeral.negative = negative ∧ numeral.Written core ∧
      text = core ++ rest := by
  obtain ⟨⟨numeral, behind⟩, readNumeral, same⟩ := map_eq_ok_iff.mp (nodeOr_eq_ok_iff.mp read)
  obtain ⟨sign, core, written, joined⟩ := of_readNumeral readNumeral
  cases same
  exact ⟨numeral, core, rfl, sign, written, joined⟩

mutual

/-- What was read is written in front of what is left. -/
theorem of_readValue {fuel : Nat} {text rest : List Char} {node : Node}
    (read : readValue fuel text = (node, .ok rest)) :
    ∃ gap core, White gap ∧ node.Written core ∧ text = gap ++ core ++ rest := by
  match fuel with
  | 0 => cases read
  | fuel + 1 =>
    obtain ⟨gap, white, joined⟩ := exists_white_skipSpace text
    suffices ∃ core, node.Written core ∧ skipSpace text = core ++ rest by
      obtain ⟨core, written, behindGap⟩ := this
      exact ⟨gap, core, white, written, by rw [joined, behindGap, List.append_assoc]⟩
    rw [readValue] at read
    split at read
    all_goals
      rename_i behindGap
      rw [behindGap]
    case h_1 => cases read
    case h_2 inside =>
      cases readInside : readLiteral inside with
      | mk literal outcome =>
        rw [readInside] at read
        cases read
        obtain ⟨core, written, joined⟩ := of_readLiteral readInside
        exact ⟨core, .string written, joined⟩
    case h_3 inside =>
      cases readInside : readItems fuel true inside with
      | mk items outcome =>
        rw [readInside] at read
        cases read
        obtain ⟨core, rfl, ⟨-, rfl, white⟩ | isItems⟩ := of_readItems readInside
        · exact ⟨_, .emptyList white, by simp⟩
        · exact ⟨_, .list isItems, by simp⟩
    case h_4 inside =>
      cases readInside : readMembers fuel true inside with
      | mk members outcome =>
        rw [readInside] at read
        cases read
        obtain ⟨core, rfl, ⟨-, rfl, white⟩ | isMembers⟩ := of_readMembers readInside
        · exact ⟨_, .emptyObject white, by simp⟩
        · exact ⟨_, .object isMembers, by simp⟩
    case h_5 =>
      obtain ⟨rfl, rfl⟩ := of_wordNode read
      exact ⟨_, .null, rfl⟩
    case h_6 =>
      obtain ⟨rfl, rfl⟩ := of_wordNode read
      exact ⟨_, .isTrue, rfl⟩
    case h_7 =>
      obtain ⟨rfl, rfl⟩ := of_wordNode read
      exact ⟨_, .isFalse, rfl⟩
    case h_8 =>
      obtain ⟨numeral, core, rfl, sign, written, rfl⟩ := of_numberNode read
      exact ⟨_, .negative sign written, rfl⟩
    case h_9 =>
      split at read
      · obtain ⟨numeral, core, rfl, sign, written, joined⟩ := of_numberNode read
        exact ⟨_, .positive sign written, joined⟩
      · cases read

/-- Behind a comma there must be another item. -/
theorem of_readItems {fuel : Nat} {first : Bool} {text rest : List Char} {items : List Node}
    (read : readItems fuel first text = (items, .ok rest)) :
    ∃ core, text = core ++ ']' :: rest ∧ (first = true ∧ items = [] ∧ White core ∨ ItemsWritten items core) := by
  match fuel with
  | 0 => cases read
  | fuel + 1 =>
    obtain ⟨gap, white, joined⟩ := exists_white_skipSpace text
    rw [readItems.eq_def] at read
    simp only at read
    split at read
    case h_1 | h_3 => cases read
    case h_2 behindGap =>
      cases read
      exact ⟨gap, by rw [joined, behindGap], .inl ⟨rfl, rfl, white⟩⟩
    case h_4 =>
      cases value : readValue fuel (skipSpace text) with
      | mk item outcome =>
        rw [value] at read
        cases outcome with
        | error cause => cases read
        | ok behind =>
          obtain ⟨inner, core, whiteInner, isItem, written⟩ := of_readValue value
          obtain ⟨after, whiteAfter, joinedAfter⟩ := exists_white_skipSpace behind
          have whiteBefore := white.append whiteInner
          simp only at read
          split at read
          case h_1 | h_4 => cases read
          case h_2 behindItem =>
            cases read
            refine ⟨_, ?_, .inr (.last whiteBefore isItem whiteAfter)⟩
            rw [joined, written, joinedAfter, behindItem]
            simp
          case h_3 more behindItem =>
            cases readOthers : readItems fuel false more with
            | mk others outcome =>
              rw [readOthers] at read
              cases read
              obtain ⟨rest, rfl, ⟨⟨⟩, -⟩ | isItems⟩ := of_readItems readOthers
              refine ⟨_, ?_, .inr (.comma whiteBefore isItem whiteAfter isItems)⟩
              rw [joined, written, joinedAfter, behindItem]
              simp

theorem of_readMembers {fuel : Nat} {first : Bool} {text rest : List Char} {members : List Member}
    (read : readMembers fuel first text = (members, .ok rest)) :
    ∃ core, text = core ++ '}' :: rest ∧ (first = true ∧ members = [] ∧ White core ∨ MembersWritten members core) := by
  match fuel with
  | 0 => cases read
  | fuel + 1 =>
    obtain ⟨gap, white, joined⟩ := exists_white_skipSpace text
    rw [readMembers.eq_def] at read
    simp only at read
    split at read
    case h_1 | h_2 | h_4 | h_6 => cases read
    case h_3 behindGap =>
      cases read
      exact ⟨gap, by rw [joined, behindGap], .inl ⟨rfl, rfl, white⟩⟩
    case h_5 inside behindGap =>
      cases key : readLiteral inside with
      | mk literal behindKey =>
        cases value : readColonAndValue fuel behindKey with
        | mk node outcome =>
          simp only [key, value] at read
          cases outcome with
          | error cause => cases read
          | ok behind =>
            obtain ⟨before, between, core, whiteBefore, whiteBetween, isValue, rfl⟩ := of_readColonAndValue value
            obtain ⟨name, isName, opened⟩ := of_readLiteral key
            obtain ⟨after, whiteAfter, joinedAfter⟩ := exists_white_skipSpace behind
            have isMember := MemberWritten.colon isName whiteBefore whiteBetween isValue
            simp only at read
            split at read
            case h_1 | h_4 => cases read
            case h_2 behindValue =>
              cases read
              refine ⟨_, ?_, .inr (.last white isMember whiteAfter)⟩
              rw [joined, behindGap, opened, joinedAfter, behindValue]
              simp
            case h_3 more behindValue =>
              cases readOthers : readMembers fuel false more with
              | mk others outcome =>
                rw [readOthers] at read
                cases read
                obtain ⟨rest, rfl, ⟨⟨⟩, -⟩ | isMembers⟩ := of_readMembers readOthers
                refine ⟨_, ?_, .inr (.comma white isMember whiteAfter isMembers)⟩
                rw [joined, behindGap, opened, joinedAfter, behindValue]
                simp

theorem of_readColonAndValue {fuel : Nat} {outcome : Rest} {rest : List Char} {value : Node}
    (read : readColonAndValue fuel outcome = (value, .ok rest)) :
    ∃ before after core, White before ∧ White after ∧ value.Written core ∧
      outcome = .ok (before ++ ':' :: (after ++ core) ++ rest) := by
  match fuel, outcome with
  | 0, _ => cases read
  | _ + 1, .error cause => cases read
  | fuel + 1, .ok text =>
    obtain ⟨gap, white, joined⟩ := exists_white_skipSpace text
    rw [readColonAndValue] at read
    split at read
    case h_1 => cases read
    case h_2 behindGap =>
      obtain ⟨after, core, whiteAfter, written, rfl⟩ := of_readValue read
      exact ⟨gap, after, core, white, whiteAfter, written, by rw [joined, behindGap]; simp⟩
    case h_3 => cases read

end

theorem white_of_skipSpace_eq_nil (nothing : skipSpace text = []) : White text := by
  obtain ⟨gap, white, joined⟩ := exists_white_skipSpace text
  rwa [joined, nothing, List.append_nil]

/-- A text says what is read in it, if nothing but white space is left. -/
theorem isText_of_readNode {node : Node} {text : String} (read : readNode text.toList = (node, .ok rest))
    (nothing : skipSpace rest = []) : node.IsText text := by
  obtain ⟨before, core, whiteBefore, written, joined⟩ := of_readValue read
  exact ⟨before, core, rest, whiteBefore, written, white_of_skipSpace_eq_nil nothing, joined⟩

/-- A text is decoded exactly if what it says is. -/
theorem decodeText_eq_ok_iff {α : Type} {decode : Node → Decoded α} {text : String} {value : α} :
    decodeText decode text = .ok value ↔ ∃ node : Node, node.IsText text ∧ decode node = .ok value := by
  constructor
  · intro decoded
    cases read : readNode text.toList with
    | mk node outcome =>
      simp only [decodeText, read] at decoded
      obtain ⟨value, decodedNode, closed⟩ := bind_eq_ok_iff.mp decoded
      cases outcome with
      | error cause => cases closed
      | ok rest =>
        simp only at closed
        split at closed
        case isFalse => cases closed
        case isTrue nothing =>
          cases closed
          exact ⟨node, isText_of_readNode read (List.isEmpty_iff.mp nothing), decodedNode⟩
  · rintro ⟨node, isText, decoded⟩
    rw [decodeText_of_isText decode isText, decoded]

end TapeMachine.Json
