import TapeMachine.Proofs.PrintedValue

namespace TapeMachine.Json

/-- A text that is one line, whatever it shows: control characters are written as others. -/
def Visible (text : List Char) : Prop := ∀ c ∈ text, ' ' ≤ c

theorem Visible.append {first second : List Char} (visible : Visible first) (others : Visible second) :
    Visible (first ++ second) := List.forall_mem_append.mpr ⟨visible, others⟩

theorem Visible.cons {c : Char} (shows : ' ' ≤ c) {text : List Char} (visible : Visible text) : Visible (c :: text) :=
  List.forall_mem_cons.mpr ⟨shows, visible⟩

theorem visible_nil : Visible [] := List.forall_mem_nil _

theorem visible_of_isDigit {c : Char} (digit : c.isDigit = true) : ' ' ≤ c := by
  have lower := (Char.isDigit_iff_toNat.mp digit).1
  change (' ' : Char).toNat ≤ c.toNat
  exact le_trans (by decide) lower

theorem visible_of_hexDigit? {c : Char} {n : Nat} (digit : hexDigit? c = some n) : ' ' ≤ c := by
  unfold hexDigit? at digit
  split at digit
  · exact visible_of_isDigit (by assumption)
  · split at digit
    · rename_i small
      exact Char.le_trans (by decide : ' ' ≤ 'a') small.1
    · split at digit
      · rename_i capital
        exact Char.le_trans (by decide : ' ' ≤ 'A') capital.1
      · cases digit

theorem visible_hexDigits {n : Nat} (small : n < 32) : Visible (hexDigits 4 n) := by
  obtain ⟨first, second, third, fourth, digits, spelled⟩ := hexDigits_spell small
  rw [digits]
  obtain ⟨_, atFirst, spelled⟩ := Option.bind_eq_some_iff.mp spelled
  obtain ⟨_, atSecond, spelled⟩ := Option.bind_eq_some_iff.mp spelled
  obtain ⟨_, atThird, spelled⟩ := Option.bind_eq_some_iff.mp spelled
  obtain ⟨_, atFourth, _⟩ := Option.bind_eq_some_iff.mp spelled
  exact .cons (visible_of_hexDigit? atFirst) (.cons (visible_of_hexDigit? atSecond)
    (.cons (visible_of_hexDigit? atThird) (.cons (visible_of_hexDigit? atFourth) visible_nil)))

theorem visible_escaped (c : Char) : Visible (escaped c) := by
  unfold escaped
  split
  case h_8 =>
    by_cases control : c < ' '
    · rw [if_pos control]
      exact .cons (by decide) (.cons (by decide) (visible_hexDigits (toNat_lt_of_lt_space control)))
    · rw [if_neg control]
      exact .cons (Char.not_lt.mp control) visible_nil
  all_goals exact .cons (by decide) (.cons (by decide) visible_nil)

theorem visible_stringText (text : String) : Visible (stringText text) := by
  have inside : Visible (text.toList.flatMap escaped) := by
    intro c member
    obtain ⟨written, _, among⟩ := List.mem_flatMap.mp member
    exact visible_escaped written c among
  exact (Visible.cons (by decide) inside).append (.cons (by decide) visible_nil)

theorem visible_integerText (value : Int) : Visible (integerText value) := by
  have digits : Visible (Nat.toDigits 10 value.natAbs) := fun c member =>
    visible_of_isDigit (Nat.isDigit_of_mem_toDigits (by decide) (by decide) member)
  unfold integerText
  split
  · exact Visible.append (.cons (by decide) visible_nil) digits
  · exact digits

namespace Value

mutual

/-- A printed value is one line, whatever characters its strings hold. -/
theorem visible_print (value : Value) : Visible value.print := by
  match value with
  | null => simp [print, Visible]
  | boolean true => simp [print, Visible]
  | boolean false => simp [print, Visible]
  | integer value => exact visible_integerText value
  | string text => exact visible_stringText text
  | list items => exact (Visible.cons (by decide) (visible_printItems items)).append (.cons (by decide) visible_nil)
  | object members =>
    exact (Visible.cons (by decide) (visible_printMembers members)).append (.cons (by decide) visible_nil)

theorem visible_printItems (items : List Value) : Visible (printItems items) := by
  match items with
  | [] => exact visible_nil
  | [item] => exact visible_print item
  | item :: next :: items => exact (visible_print item).append (.cons (by decide) (visible_printItems (next :: items)))

theorem visible_printMembers (members : List (String × Value)) : Visible (printMembers members) := by
  match members with
  | [] => exact visible_nil
  | [(key, value)] => exact (visible_stringText key).append (.cons (by decide) (visible_print value))
  | (key, value) :: next :: members =>
    exact ((visible_stringText key).append (.cons (by decide) (visible_print value))).append
      (.cons (by decide) (visible_printMembers (next :: members)))

end

theorem lineFeed_not_mem_text (value : Value) : '\n' ∉ value.text.toList := by
  rw [text, String.toList_ofList]
  exact fun member => absurd (value.visible_print '\n' member) (by decide)

end Value

end TapeMachine.Json
