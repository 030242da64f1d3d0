import TapeMachine.Json.Decode

namespace TapeMachine.Json

/-- White space, as it may stand between the parts of a text. -/
def White (text : List Char) : Prop := ∀ c ∈ text, isSpace c = true

/-- One digit or more. -/
def Digits (text : List Char) : Prop := text ≠ [] ∧ ∀ c ∈ text, c.isDigit = true

/-- The digits of a fraction, and the text that writes it. Without a fraction there is no point. -/
inductive FractionWritten : List Char → List Char → Prop
  | none : FractionWritten [] []
  | point {digits} : Digits digits → FractionWritten digits ('.' :: digits)

/-- An exponent: whether it is negative, its digits, and the text that writes it. -/
inductive ExponentWritten : Bool → List Char → List Char → Prop
  | none : ExponentWritten false [] []
  | bare {letter digits} : letter = 'e' ∨ letter = 'E' → Digits digits →
      ExponentWritten false digits (letter :: digits)
  | plus {letter digits} : letter = 'e' ∨ letter = 'E' → Digits digits →
      ExponentWritten false digits (letter :: '+' :: digits)
  | minus {letter digits} : letter = 'e' ∨ letter = 'E' → Digits digits →
      ExponentWritten true digits (letter :: '-' :: digits)

/-- A numeral without its sign. No zero stands in front of other digits. -/
inductive Numeral.Written : Numeral → List Char → Prop
  | parts {numeral : Numeral} {fraction exponent} : Digits numeral.whole →
      (numeral.whole.head? = some '0' → numeral.whole = ['0']) → FractionWritten numeral.fraction fraction →
      ExponentWritten numeral.exponentNegative numeral.exponent exponent →
      Written numeral (numeral.whole ++ fraction ++ exponent)

/-- The inside of a string. Quotation marks, backslashes and control characters do not stand for
themselves. -/
inductive PiecesWritten : List Piece → List Char → Prop
  | nil : PiecesWritten [] []
  | plain {c pieces text} : c ≠ '"' → c ≠ '\\' → ¬ c < ' ' → PiecesWritten pieces text →
      PiecesWritten (.char c :: pieces) (c :: text)
  | escape {letter c pieces text} : shortEscape? letter = some c → PiecesWritten pieces text →
      PiecesWritten (.char c :: pieces) ('\\' :: letter :: text)
  | unit {first second third fourth value pieces text} : hexUnit? first second third fourth = some value →
      PiecesWritten pieces text →
      PiecesWritten (.unit value :: pieces) ('\\' :: 'u' :: first :: second :: third :: fourth :: text)

inductive Literal.Written : Literal → List Char → Prop
  | quoted {pieces text} : PiecesWritten pieces text → Written ⟨pieces, none⟩ ('"' :: text ++ ['"'])

mutual

/-- How a value is written, with no white space around it. -/
inductive Node.Written : Node → List Char → Prop
  | null : Node.Written .null ['n', 'u', 'l', 'l']
  | isTrue : Node.Written (.boolean true) ['t', 'r', 'u', 'e']
  | isFalse : Node.Written (.boolean false) ['f', 'a', 'l', 's', 'e']
  | positive {numeral text} : numeral.negative = false → numeral.Written text → Node.Written (.number numeral) text
  | negative {numeral text} : numeral.negative = true → numeral.Written text →
      Node.Written (.number numeral) ('-' :: text)
  | string {literal text} : literal.Written text → Node.Written (.string literal) text
  | emptyList {gap} : White gap → Node.Written (.list [] none) ('[' :: gap ++ [']'])
  | list {items text} : ItemsWritten items text → Node.Written (.list items none) ('[' :: text ++ [']'])
  | emptyObject {gap} : White gap → Node.Written (.object [] none) ('{' :: gap ++ ['}'])
  | object {members text} : MembersWritten members text → Node.Written (.object members none) ('{' :: text ++ ['}'])

/-- The items of a list, between its brackets. -/
inductive ItemsWritten : List Node → List Char → Prop
  | last {item before text after} : White before → Node.Written item text → White after →
      ItemsWritten [item] (before ++ text ++ after)
  | comma {item items before text after rest} : White before → Node.Written item text → White after →
      ItemsWritten items rest → ItemsWritten (item :: items) (before ++ text ++ after ++ ',' :: rest)

/-- The members of an object, between its braces. -/
inductive MembersWritten : List Member → List Char → Prop
  | last {member before text after} : White before → MemberWritten member text → White after →
      MembersWritten [member] (before ++ text ++ after)
  | comma {member members before text after rest} : White before → MemberWritten member text → White after →
      MembersWritten members rest → MembersWritten (member :: members) (before ++ text ++ after ++ ',' :: rest)

inductive MemberWritten : Member → List Char → Prop
  | colon {key value name before after text} : Literal.Written key name → White before → White after →
      Node.Written value text → MemberWritten (key, value) (name ++ before ++ ':' :: (after ++ text))

end

/-- A whole text is a value with white space around it. -/
def Node.IsText (node : Node) (text : String) : Prop :=
  ∃ before core after, White before ∧ node.Written core ∧ White after ∧ text.toList = before ++ core ++ after

theorem skipSpace_cons {c : Char} (noSpace : isSpace c = false) (text : List Char) :
    skipSpace (c :: text) = c :: text :=
  List.dropWhile_cons_of_neg (by simp [noSpace])

theorem White.nil : White [] := by simp [White]

theorem White.skipSpace_append {gap : List Char} (white : White gap) (text : List Char) :
    skipSpace (gap ++ text) = skipSpace text :=
  List.dropWhile_append_of_pos white

theorem isSpace_of_isDigit {c : Char} (digit : c.isDigit = true) : isSpace c = false := by
  rw [Bool.eq_false_iff]
  intro space
  simp only [isSpace, Bool.or_eq_true, decide_eq_true_eq] at space
  rcases space with ((rfl | rfl) | rfl) | rfl <;> exact absurd digit (by decide)

/-- What may follow a number: nothing that would continue it. -/
def NumeralEnds (rest : List Char) : Prop :=
  ∀ c ∈ rest.head?, c.isDigit = false ∧ c ≠ '.' ∧ c ≠ 'e' ∧ c ≠ 'E'

theorem numeralEnds_nil : NumeralEnds [] := by simp [NumeralEnds]

/-- A separator ends every number. -/
theorem numeralEnds_cons (c : Char) (rest : List Char)
    (separates : c.isDigit = false ∧ c ≠ '.' ∧ c ≠ 'e' ∧ c ≠ 'E') : NumeralEnds (c :: rest) := by
  intro first same
  cases same
  exact separates

theorem White.numeralEnds_append {gap rest : List Char} (white : White gap) (ends : NumeralEnds rest) :
    NumeralEnds (gap ++ rest) := by
  cases gap with
  | nil => exact ends
  | cons c gap =>
    have space := white c (List.mem_cons_self ..)
    simp only [isSpace, Bool.or_eq_true, decide_eq_true_eq] at space
    refine numeralEnds_cons c _ ?_
    rcases space with ((rfl | rfl) | rfl) | rfl <;> decide

/-- All digits are read, if none follows them. -/
theorem Digits.read {digits rest : List Char} (isDigits : Digits digits)
    (ends : ∀ c ∈ rest.head?, c.isDigit = false) : readDigits (digits ++ rest) = .ok (digits, rest) := by
  have noMore : rest.takeWhile Char.isDigit = [] ∧ rest.dropWhile Char.isDigit = rest := by
    cases rest with
    | nil => exact ⟨rfl, rfl⟩
    | cons c rest =>
      have noDigit : ¬ c.isDigit = true := by simp [ends c rfl]
      exact ⟨List.takeWhile_cons_of_neg noDigit, List.dropWhile_cons_of_neg noDigit⟩
  have taken : (digits ++ rest).takeWhile Char.isDigit = digits := by
    rw [List.takeWhile_append_of_pos isDigits.2, noMore.1, List.append_nil]
  have dropped : (digits ++ rest).dropWhile Char.isDigit = rest := by
    rw [List.dropWhile_append_of_pos isDigits.2, noMore.2]
  obtain ⟨c, others, rfl⟩ := List.exists_cons_of_ne_nil isDigits.1
  have first : c.isDigit = true := isDigits.2 c (List.mem_cons_self ..)
  change (if c.isDigit then Except.ok (_, _) else _) = _
  rw [if_pos first, taken, dropped]

theorem Digits.head {digits : List Char} (isDigits : Digits digits) :
    ∃ c rest, digits = c :: rest ∧ c.isDigit = true := by
  obtain ⟨c, rest, rfl⟩ := List.exists_cons_of_ne_nil isDigits.1
  exact ⟨c, rest, rfl, isDigits.2 c (List.mem_cons_self ..)⟩

namespace ExponentWritten

variable {negative : Bool} {exponent text rest : List Char}

/-- In front of an exponent a number has neither a digit nor a point. -/
theorem head (written : ExponentWritten negative exponent text) (ends : NumeralEnds rest) :
    ∀ c ∈ (text ++ rest).head?, c.isDigit = false ∧ c ≠ '.' := by
  intro c atHead
  cases written with
  | none => exact ⟨(ends c atHead).1, (ends c atHead).2.1⟩
  | bare isLetter _ | plus isLetter _ | minus isLetter _ =>
    cases atHead
    rcases isLetter with rfl | rfl <;> decide

theorem read (written : ExponentWritten negative exponent text) (ends : NumeralEnds rest) :
    readExponent (text ++ rest) = .ok (negative, exponent, rest) := by
  have noMore : ∀ c ∈ rest.head?, c.isDigit = false := fun c atHead => (ends c atHead).1
  cases written with
  | none =>
    rw [List.nil_append]
    unfold readExponent
    split
    · exact if_neg (not_or.mpr (ends _ rfl).2.2)
    · rfl
  | bare isLetter isDigits =>
    have digits := isDigits.read noMore
    obtain ⟨c, others, rfl, digit⟩ := isDigits.head
    rw [List.cons_append, readExponent, if_pos isLetter, digits]
    -- Neither of the two patterns with a sign applies, as a digit is no sign.
    case bare.x_1 | bare.x_2 =>
      rintro _ ⟨⟩
      cases digit
    rfl
  | plus isLetter isDigits =>
    rw [List.cons_append, List.cons_append, readExponent, if_pos isLetter]
    change (false, ·) <$> readDigits _ = _
    rw [isDigits.read noMore]
    rfl
  | minus isLetter isDigits =>
    rw [List.cons_append, List.cons_append, readExponent, if_pos isLetter]
    change (true, ·) <$> readDigits _ = _
    rw [isDigits.read noMore]
    rfl

end ExponentWritten

/-- In front of a fraction a number has no digit. -/
theorem FractionWritten.head {fraction text rest : List Char} (written : FractionWritten fraction text)
    (ends : ∀ c ∈ rest.head?, c.isDigit = false) : ∀ c ∈ (text ++ rest).head?, c.isDigit = false := by
  intro c atHead
  cases written with
  | none => exact ends c atHead
  | point => cases atHead; rfl

theorem FractionWritten.read {fraction text rest : List Char} (written : FractionWritten fraction text)
    (ends : ∀ c ∈ rest.head?, c.isDigit = false ∧ c ≠ '.') :
    readFraction (text ++ rest) = .ok (fraction, rest) := by
  cases written with
  | none =>
    rw [List.nil_append]
    unfold readFraction
    split
    case h_1 => exact absurd rfl (ends '.' rfl).2
    case h_2 => rfl
  | point isDigits => exact isDigits.read fun c atHead => (ends c atHead).1

/-- A number is read as it is written, if nothing behind it continues it. -/
theorem Numeral.Written.read {numeral : Numeral} {text rest : List Char} (written : numeral.Written text)
    (ends : NumeralEnds rest) : readNumeral numeral.negative (text ++ rest) = .ok (numeral, rest) := by
  obtain ⟨isDigits, noZero, isFraction, isExponent⟩ := written
  rename_i fraction exponent
  have exponentHead := isExponent.head ends
  have digits := isDigits.read (isFraction.head fun c atHead => (exponentHead c atHead).1)
  have whole : readWhole (numeral.whole ++ (fraction ++ (exponent ++ rest))) =
      .ok (numeral.whole, fraction ++ (exponent ++ rest)) := by
    have allowed : ¬ (numeral.whole.head? = some '0' ∧ numeral.whole ≠ ['0']) := fun zero => zero.2 (noZero zero.1)
    simp only [readWhole, digits, bind, Except.bind, if_neg allowed]
    rfl
  simp only [readNumeral, List.append_assoc, whole, isFraction.read exponentHead, isExponent.read ends, bind,
    Except.bind]
  rfl

theorem readPieces_plain {c : Char} (notQuote : c ≠ '"') (notBackslash : c ≠ '\\') (visible : ¬ c < ' ')
    (text : List Char) : readPieces (c :: text) = (.char c :: (readPieces text).1, (readPieces text).2) := by
  rw [readPieces.eq_def]
  split
  all_goals simp_all

/-- The inside of a string is read up to its closing quotation mark. -/
theorem PiecesWritten.read {pieces : List Piece} {text : List Char} (written : PiecesWritten pieces text)
    (rest : List Char) : readPieces (text ++ '"' :: rest) = (pieces, .ok rest) := by
  induction written with
  | nil => simp [readPieces]
  | plain notQuote notBackslash visible _ ih =>
    rw [List.cons_append, readPieces_plain notQuote notBackslash visible, ih]
  | @escape letter c pieces text known _ ih =>
    have notUnit : letter ≠ 'u' := by rintro rfl; cases known
    rw [List.cons_append, List.cons_append, readPieces.eq_def]
    simp [notUnit, known, ih]
  | unit spelled _ ih => simp [readPieces, spelled, ih]

theorem Literal.Written.read {literal : Literal} {text : List Char} (written : literal.Written text)
    (rest : List Char) : ∃ inside, text ++ rest = '"' :: inside ∧ readLiteral inside = (literal, .ok rest) := by
  obtain ⟨isInside⟩ := written
  refine ⟨_, by rw [List.append_assoc, List.cons_append, List.singleton_append], ?_⟩
  rw [readLiteral, isInside.read]
  rfl

theorem Numeral.Written.head {numeral : Numeral} {text : List Char} (written : numeral.Written text) :
    ∃ c rest, text = c :: rest ∧ c.isDigit = true := by
  obtain ⟨isDigits, -, -, -⟩ := written
  obtain ⟨c, rest, whole, digit⟩ := isDigits.head
  exact ⟨c, _, by rw [whole, List.cons_append, List.cons_append], digit⟩

/-- A value starts neither with white space nor like the end of a list. -/
theorem Node.Written.head {node : Node} {text : List Char} (written : node.Written text) :
    ∃ c rest, text = c :: rest ∧ isSpace c = false ∧ c ≠ ']' := by
  cases written with
  | null | isTrue | isFalse | negative | emptyList | list | emptyObject | object =>
    exact ⟨_, _, rfl, by decide, by decide⟩
  | positive _ isNumeral =>
    obtain ⟨c, rest, rfl, digit⟩ := isNumeral.head
    refine ⟨c, rest, rfl, isSpace_of_isDigit digit, ?_⟩
    rintro rfl
    cases digit
  | string isLiteral =>
    cases isLiteral
    exact ⟨_, _, rfl, by decide, by decide⟩

theorem White.skipSpace_append_cons {gap : List Char} (white : White gap) {c : Char} (noSpace : isSpace c = false)
    (text : List Char) : skipSpace (gap ++ c :: text) = c :: text := by
  rw [white.skipSpace_append, skipSpace_cons noSpace]

theorem readValue_digit {c : Char} (digit : c.isDigit = true) (fuel : Nat) (text : List Char) :
    readValue (fuel + 1) (c :: text) = numberNode false (c :: text) := by
  rw [readValue, skipSpace_cons (isSpace_of_isDigit digit)]
  split
  case h_9 =>
    rename_i first others _ _ _ _ _ _ _ same
    cases same
    rw [if_pos digit]
  all_goals
    rename_i same
    cases same <;> exact absurd digit (by decide)

/-- White space in front of a value does not matter. -/
theorem readValue_skipSpace {gap : List Char} (white : White gap) (fuel : Nat) (text : List Char) :
    readValue fuel (gap ++ text) = readValue fuel text := by
  cases fuel with
  | zero => rfl
  | succ fuel => rw [readValue, readValue, white.skipSpace_append]

section Parts

variable {fuel : Nat} {first : Bool} {before after text rest : List Char}

theorem readItems_close (white : White before) :
    readItems (fuel + 1) true (before ++ ']' :: rest) = ([], .ok rest) := by
  simp [readItems, white.skipSpace_append_cons (rfl : isSpace ']' = false)]

theorem readMembers_close (white : White before) :
    readMembers (fuel + 1) true (before ++ '}' :: rest) = ([], .ok rest) := by
  simp [readMembers, white.skipSpace_append_cons (rfl : isSpace '}' = false)]

/-- An item is read on its own, whatever stands behind it. -/
theorem readItems_last {item : Node} (whiteBefore : White before) (written : item.Written text)
    (whiteAfter : White after) (read : readValue fuel (text ++ (after ++ ']' :: rest)) = (item, .ok (after ++ ']' :: rest))) :
    readItems (fuel + 1) first (before ++ text ++ (after ++ ']' :: rest)) = ([item], .ok rest) := by
  obtain ⟨c, others, rfl, noSpace, noClose⟩ := written.head
  rw [List.cons_append] at read
  rw [List.append_assoc, List.cons_append, readItems.eq_def]
  cases first <;> simp [whiteBefore.skipSpace_append_cons noSpace, noClose, read,
    whiteAfter.skipSpace_append_cons (rfl : isSpace ']' = false)]

theorem readItems_comma {item : Node} {items : List Node} {more : List Char} (whiteBefore : White before)
    (written : item.Written text) (whiteAfter : White after)
    (read : readValue fuel (text ++ (after ++ ',' :: more)) = (item, .ok (after ++ ',' :: more)))
    (others : readItems fuel false more = (items, .ok rest)) :
    readItems (fuel + 1) first (before ++ text ++ (after ++ ',' :: more)) = (item :: items, .ok rest) := by
  obtain ⟨c, letters, rfl, noSpace, noClose⟩ := written.head
  rw [List.cons_append] at read
  rw [List.append_assoc, List.cons_append, readItems.eq_def]
  cases first <;> simp [whiteBefore.skipSpace_append_cons noSpace, noClose, read, others,
    whiteAfter.skipSpace_append_cons (rfl : isSpace ',' = false)]

/-- At the head of the text stands a member, which is read up to `rest`. -/
def MemberRead (fuel : Nat) (member : Member) (text rest : List Char) : Prop :=
  ∃ inside behindKey, text = '"' :: inside ∧ readLiteral inside = (member.1, .ok behindKey) ∧
    readColonAndValue fuel (.ok behindKey) = (member.2, .ok rest)

theorem readMembers_last {member : Member} (whiteBefore : White before) (whiteAfter : White after)
    (read : MemberRead fuel member (text ++ (after ++ '}' :: rest)) (after ++ '}' :: rest)) :
    readMembers (fuel + 1) first (before ++ text ++ (after ++ '}' :: rest)) = ([member], .ok rest) := by
  obtain ⟨inside, behindKey, opened, key, value⟩ := read
  rw [List.append_assoc, opened, readMembers.eq_def]
  cases first <;> simp [whiteBefore.skipSpace_append_cons (rfl : isSpace '"' = false), key, value,
    whiteAfter.skipSpace_append_cons (rfl : isSpace '}' = false)]

theorem readMembers_comma {member : Member} {members : List Member} {more : List Char} (whiteBefore : White before)
    (whiteAfter : White after) (read : MemberRead fuel member (text ++ (after ++ ',' :: more)) (after ++ ',' :: more))
    (others : readMembers fuel false more = (members, .ok rest)) :
    readMembers (fuel + 1) first (before ++ text ++ (after ++ ',' :: more)) = (member :: members, .ok rest) := by
  obtain ⟨inside, behindKey, opened, key, value⟩ := read
  rw [List.append_assoc, opened, readMembers.eq_def]
  cases first <;> simp [whiteBefore.skipSpace_append_cons (rfl : isSpace '"' = false), key, value, others,
    whiteAfter.skipSpace_append_cons (rfl : isSpace ',' = false)]

theorem readColonAndValue_colon (whiteBefore : White before) (whiteAfter : White after) :
    readColonAndValue (fuel + 1) (.ok (before ++ ':' :: (after ++ text))) = readValue fuel text := by
  simp [readColonAndValue, whiteBefore.skipSpace_append_cons (rfl : isSpace ':' = false),
    readValue_skipSpace whiteAfter]

end Parts

/-- Literals and values are never written as nothing. -/
theorem Node.Written.length_pos {node : Node} {text : List Char} (written : node.Written text) : 0 < text.length := by
  obtain ⟨c, rest, rfl, -⟩ := written.head
  exact Nat.succ_pos _

theorem Literal.Written.stop_eq {literal : Literal} {text : List Char} (written : literal.Written text) :
    literal.stop = none := by
  cases written
  rfl

theorem Literal.Written.length_pos {literal : Literal} {text : List Char} (written : literal.Written text) :
    0 < text.length := by
  cases written
  exact Nat.succ_pos _

mutual

/-- A value is read as it is written, and nothing behind it is touched. Every part of a value is shorter than
the value, so that its length is fuel enough. -/
theorem Node.Written.read {node : Node} {text rest : List Char} {fuel : Nat} (written : node.Written text)
    (enough : text.length ≤ fuel) (ends : NumeralEnds rest) : readValue fuel (text ++ rest) = (node, .ok rest) := by
  obtain ⟨fuel, rfl⟩ : ∃ less, fuel = less + 1 :=
    Nat.exists_eq_add_one.mpr (Nat.lt_of_lt_of_le written.length_pos enough)
  match written with
  | .null => rfl
  | .isTrue => rfl
  | .isFalse => rfl
  | .positive sign isNumeral =>
    obtain ⟨c, others, rfl, digit⟩ := isNumeral.head
    have read := isNumeral.read ends
    rw [sign, List.cons_append] at read
    rw [List.cons_append, readValue_digit digit, numberNode, read]
    rfl
  | .negative sign isNumeral =>
    have read := isNumeral.read ends
    rw [sign] at read
    rw [List.cons_append, readValue, skipSpace_cons (by decide)]
    simp [numberNode, read]
    rfl
  | .string isLiteral =>
    obtain ⟨inside, opened, read⟩ := isLiteral.read rest
    rw [opened, readValue, skipSpace_cons (by decide)]
    simp [read]
  | .emptyList white =>
    obtain ⟨fuel, rfl⟩ : ∃ less, fuel = less + 1 := Nat.exists_eq_add_one.mpr (by simp at enough; omega)
    rw [List.append_assoc, List.cons_append, readValue, skipSpace_cons (by decide)]
    simp [readItems_close white, Rest.break?]
  | .list isItems =>
    have inside : readItems fuel true (_ ++ ']' :: rest) = _ := isItems.read (by simp at enough; omega)
    rw [List.append_assoc, List.cons_append, readValue, skipSpace_cons (by decide)]
    simp [inside, Rest.break?]
  | .emptyObject white =>
    obtain ⟨fuel, rfl⟩ : ∃ less, fuel = less + 1 := Nat.exists_eq_add_one.mpr (by simp at enough; omega)
    rw [List.append_assoc, List.cons_append, readValue, skipSpace_cons (by decide)]
    simp [readMembers_close white, Rest.break?]
  | .object isMembers =>
    have inside : readMembers fuel true (_ ++ '}' :: rest) = _ := isMembers.read (by simp at enough; omega)
    rw [List.append_assoc, List.cons_append, readValue, skipSpace_cons (by decide)]
    simp [inside, Rest.break?]

theorem ItemsWritten.read {items : List Node} {text rest : List Char} {fuel : Nat} {first : Bool}
    (written : ItemsWritten items text) (enough : text.length < fuel) :
    readItems fuel first (text ++ ']' :: rest) = (items, .ok rest) := by
  obtain ⟨fuel, rfl⟩ : ∃ less, fuel = less + 1 := Nat.exists_eq_add_one.mpr (Nat.zero_lt_of_lt enough)
  match written with
  | .last before isItem after =>
    have ends := after.numeralEnds_append (numeralEnds_cons ']' rest (by decide))
    rw [List.append_assoc]
    exact readItems_last before isItem after (isItem.read (by simp at enough; omega) ends)
  | .comma before isItem after isItems =>
    have ends (others : List Char) := after.numeralEnds_append (numeralEnds_cons ',' others (by decide))
    have positive := isItem.length_pos
    rw [List.append_assoc, List.append_assoc]
    exact readItems_comma before isItem after (isItem.read (by simp at enough; omega) (ends _))
      (isItems.read (by simp at enough; omega))

theorem MemberWritten.read {member : Member} {text rest : List Char} {fuel : Nat}
    (written : MemberWritten member text) (enough : text.length ≤ fuel) (ends : NumeralEnds rest) :
    MemberRead fuel member (text ++ rest) rest := by
  match written with
  | .colon isLiteral afterName beforeValue isValue =>
    have positive := isLiteral.length_pos
    obtain ⟨fuel, rfl⟩ : ∃ less, fuel = less + 1 := Nat.exists_eq_add_one.mpr (by simp at enough; omega)
    obtain ⟨inside, opened, key⟩ := isLiteral.read (_ ++ ':' :: (_ ++ (_ ++ rest)))
    refine ⟨inside, _, by simpa using opened, key, ?_⟩
    rw [readColonAndValue_colon afterName beforeValue]
    exact isValue.read (by simp at enough; omega) ends

theorem MembersWritten.read {members : List Member} {text rest : List Char} {fuel : Nat} {first : Bool}
    (written : MembersWritten members text) (enough : text.length < fuel) :
    readMembers fuel first (text ++ '}' :: rest) = (members, .ok rest) := by
  obtain ⟨fuel, rfl⟩ : ∃ less, fuel = less + 1 := Nat.exists_eq_add_one.mpr (Nat.zero_lt_of_lt enough)
  match written with
  | .last before isMember after =>
    have ends := after.numeralEnds_append (numeralEnds_cons '}' rest (by decide))
    rw [List.append_assoc]
    exact readMembers_last before after (isMember.read (by simp at enough; omega) ends)
  | .comma before isMember after isMembers =>
    have ends (others : List Char) := after.numeralEnds_append (numeralEnds_cons ',' others (by decide))
    rw [List.append_assoc, List.append_assoc]
    exact readMembers_comma before after (isMember.read (by simp at enough; omega) (ends _))
      (isMembers.read (by simp at enough; omega))

end

/-- What a text says is what is read in it, between white space. -/
theorem Node.IsText.read {node : Node} {text : String} (isText : node.IsText text) :
    ∃ after, White after ∧ readNode text.toList = (node, .ok after) := by
  obtain ⟨before, core, after, whiteBefore, written, whiteAfter, parts⟩ := isText
  refine ⟨after, whiteAfter, ?_⟩
  have enough : core.length ≤ fuelFor text.toList := by
    simp only [fuelFor, parts, List.length_append]
    omega
  have ends : NumeralEnds after := by simpa using whiteAfter.numeralEnds_append numeralEnds_nil
  rw [readNode, parts, List.append_assoc, readValue_skipSpace whiteBefore, ← List.append_assoc, ← parts,
    written.read enough ends]

/-- Decoding a text is decoding what it says. -/
theorem decodeText_of_isText {α : Type} (decode : Node → Decoded α) {node : Node} {text : String}
    (isText : node.IsText text) : decodeText decode text = decode node := by
  obtain ⟨after, white, read⟩ := isText.read
  have nothing : skipSpace after = [] := by simpa [skipSpace] using white.skipSpace_append []
  simp only [decodeText, read, nothing, List.isEmpty_nil, if_true]
  cases decode node <;> rfl

mutual

/-- What is written as the grammar says can be passed over. -/
theorem Node.Written.skipFault?_eq {node : Node} {text : List Char} (written : node.Written text) :
    node.skipFault? = none := by
  match written with
  | .null | .isTrue | .isFalse | .positive .. | .negative .. | .emptyList _ | .emptyObject _ => rfl
  | .string isLiteral => simp [Node.skipFault?, isLiteral.stop_eq]
  | .list isItems => simp [Node.skipFault?, isItems.skipItems?_eq]
  | .object isMembers => simp [Node.skipFault?, isMembers.skipMembers?_eq]

theorem ItemsWritten.skipItems?_eq {items : List Node} {text : List Char} (written : ItemsWritten items text) :
    Node.skipItems? items = none := by
  match written with
  | .last _ isItem _ => simp [Node.skipItems?, isItem.skipFault?_eq]
  | .comma _ isItem _ isItems => simp [Node.skipItems?, isItem.skipFault?_eq, isItems.skipItems?_eq]

theorem MembersWritten.skipMembers?_eq {members : List Member} {text : List Char}
    (written : MembersWritten members text) : Node.skipMembers? members = none := by
  match written with
  | .last _ (.colon isLiteral _ _ isValue) _ =>
    simp [Node.skipMembers?, isLiteral.stop_eq, isValue.skipFault?_eq]
  | .comma _ (.colon isLiteral _ _ isValue) _ isMembers =>
    simp [Node.skipMembers?, isLiteral.stop_eq, isValue.skipFault?_eq, isMembers.skipMembers?_eq]

end

end TapeMachine.Json
