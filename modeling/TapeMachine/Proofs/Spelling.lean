import Mathlib.Tactic.IntervalCases
import TapeMachine.Json.Value
import TapeMachine.Proofs.JsonGrammar

namespace TapeMachine.Json

/-- How a character of a printed string is read: control characters without a letter of their own stand
as the number of their unit. -/
def pieceOf (c : Char) : Piece :=
  if c < ' ' ∧ c ∉ ['\x08', '\x0c', '\n', '\r', '\t'] then .unit c.toNat else .char c

def literalOf (text : String) : Literal := ⟨text.toList.map pieceOf, none⟩

theorem toNat_lt_of_lt_space {c : Char} (control : c < ' ') : c.toNat < 32 := by
  exact control

/-- Four digits spell a unit below 32. -/
theorem hexDigits_spell {n : Nat} (small : n < 32) :
    ∃ a b c d, hexDigits 4 n = [a, b, c, d] ∧ hexUnit? a b c d = some n := by
  interval_cases n <;> exact ⟨_, _, _, _, rfl, by decide⟩

theorem PiecesWritten.escaped (c : Char) {pieces : List Piece} {text : List Char} (written : PiecesWritten pieces text) :
    PiecesWritten (pieceOf c :: pieces) (escaped c ++ text) := by
  unfold Json.escaped
  split
  case h_8 notQuote notBackslash _ _ _ _ _ =>
    by_cases control : c < ' '
    · obtain ⟨first, second, third, fourth, digits, spelled⟩ := hexDigits_spell (toNat_lt_of_lt_space control)
      have isUnit : pieceOf c = .unit c.toNat := if_pos ⟨control, by simp_all⟩
      rw [if_pos control, digits, isUnit]
      exact .unit spelled written
    · have isChar : pieceOf c = .char c := if_neg fun both => control both.1
      rw [if_neg control, isChar]
      exact .plain notQuote notBackslash control written
  all_goals exact .escape rfl written

/-- A printed string is a string. -/
theorem written_stringText (text : String) : (literalOf text).Written (stringText text) := by
  refine .quoted ?_
  induction text.toList with
  | nil => exact .nil
  | cons c symbols ih => exact ih.escaped c

theorem decodePieces_pieceOf (c : Char) (stop : Option Break) (pieces : List Piece) :
    decodePieces stop (pieceOf c :: pieces) = (c :: ·) <$> decodePieces stop pieces := by
  unfold pieceOf
  split
  · rename_i control
    have small : c.toNat < 32 := toNat_lt_of_lt_space control.1
    have notLow : isLowSurrogate c.toNat = false := by
      simp only [isLowSurrogate, Bool.and_eq_false_iff, decide_eq_false_iff_not]
      omega
    have notHigh : isHighSurrogate c.toNat = false := by
      simp only [isHighSurrogate, Bool.and_eq_false_iff, decide_eq_false_iff_not]
      omega
    rw [decodePieces.eq_def]
    simp only [notLow, notHigh, Char.ofNat_toNat]
    rfl
  · rw [decodePieces]

/-- Every string is spelled so that it can be read: what is decoded is what was printed. -/
theorem text_literalOf (text : String) : (literalOf text).text = .ok text := by
  have decoded (symbols : List Char) : decodePieces none (symbols.map pieceOf) = .ok symbols := by
    induction symbols with
    | nil => rfl
    | cons c symbols ih => rw [List.map_cons, decodePieces_pieceOf, ih]; rfl
  rw [Literal.text, literalOf, decoded]
  exact congrArg Except.ok String.ofList_toList

def numeralOf (value : Int) : Numeral := ⟨value < 0, Nat.toDigits 10 value.natAbs, [], false, []⟩

/-- A printed number has no zero in front of its other digits. -/
theorem eq_zero_of_head?_toDigits {n : Nat} (zero : (Nat.toDigits 10 n).head? = some '0') : n = 0 := by
  induction n using Nat.strongRecOn with
  | ind n ih =>
    by_cases small : n < 10
    · rw [Nat.toDigits_of_lt_base small] at zero
      exact Nat.digitChar_eq_zero.mp (Option.some.inj zero)
    · rw [Nat.toDigits_of_base_le (by omega) (by omega), List.head?_append, Option.or_of_isSome (by simp)] at zero
      have noQuotient := ih (n / 10) (by omega) zero
      omega

/-- A printed number is a number, with its sign left out. -/
theorem written_toDigits (value : Int) : (numeralOf value).Written (Nat.toDigits 10 value.natAbs) := by
  have isDigits : Digits (Nat.toDigits 10 value.natAbs) :=
    ⟨Nat.toDigits_ne_nil, fun c member => Nat.isDigit_of_mem_toDigits (by decide) (by decide) member⟩
  have noZero (zero : (Nat.toDigits 10 value.natAbs).head? = some '0') : Nat.toDigits 10 value.natAbs = ['0'] := by
    rw [eq_zero_of_head?_toDigits zero]
    exact Nat.toDigits_zero 10
  have parts : (numeralOf value).Written (Nat.toDigits 10 value.natAbs ++ [] ++ []) :=
    .parts isDigits noZero .none .none
  rwa [List.append_nil, List.append_nil] at parts

theorem le_ofDigitChars (digits : List Char) (value : Nat) : value ≤ Nat.ofDigitChars 10 digits value := by
  have scaled : 1 * value ≤ 10 ^ digits.length * value := Nat.mul_le_mul_right value (Nat.one_le_pow _ _ (by decide))
  rw [Nat.ofDigitChars_eq_ofDigitChars_zero]
  omega

/-- All digits are taken if the number that they spell fits. -/
theorem appendDigits_eq {digits : List Char} {value : Nat} (fits : Nat.ofDigitChars 10 digits value ≤ maxNatural) :
    appendDigits value digits = (Nat.ofDigitChars 10 digits value, digits.length) := by
  induction digits generalizing value with
  | nil => rw [Nat.ofDigitChars_nil]; rfl
  | cons c digits ih =>
    have next : 10 * value + (c.toNat - '0'.toNat) = value * 10 + digitValue c := by
      rw [digitValue, Nat.mul_comm]
    rw [Nat.ofDigitChars_cons, next] at fits ⊢
    have within := (le_ofDigitChars digits _).trans fits
    rw [appendDigits, if_pos within, ih fits]
    rfl

theorem appendDigits_toDigits {n : Nat} (fits : n ≤ maxNatural) :
    appendDigits 0 (Nat.toDigits 10 n) = (n, (Nat.toDigits 10 n).length) := by
  have spelled : Nat.ofDigitChars 10 (Nat.toDigits 10 n) 0 = n := Nat.ofDigitChars_toDigits (by decide) (by decide)
  rw [appendDigits_eq (by rwa [spelled]), spelled]

/-- A printed number that is not negative has its value if that fits into 64 bits. -/
theorem value_numeralOf_natural {n : Nat} (fits : n < 2 ^ 64) : (numeralOf n).value = .ok (.natural n) := by
  have notNegative : decide ((n : Int) < 0) = false := decide_eq_false (by omega)
  rw [Numeral.value, numeralOf, Int.natAbs_natCast, appendDigits_toDigits (Nat.le_sub_one_of_lt fits), notNegative]
  exact if_pos ⟨rfl, rfl, rfl⟩

theorem value_numeralOf_negative {value : Int} (negative : value < 0) (fits : -2 ^ 63 ≤ value) :
    (numeralOf value).value = .ok (.negative value) := by
  have bounded : 0 < value.natAbs ∧ value.natAbs ≤ 2 ^ 63 := by omega
  have small : 2 ^ 63 ≤ maxNatural := by decide
  have magnitude : -(value.natAbs : Int) = value := by omega
  rw [Numeral.value, numeralOf, appendDigits_toDigits (bounded.2.trans small), decide_eq_true negative]
  calc _ = (Except.ok (.negative (-value.natAbs)) : Except Fault Number) :=
        (if_neg fun all => Bool.noConfusion all.2.2).trans (if_pos ⟨rfl, rfl, bounded⟩)
    _ = .ok (.negative value) := by rw [magnitude]

end TapeMachine.Json
