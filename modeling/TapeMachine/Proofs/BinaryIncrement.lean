import TapeMachine.Program.Catalog
import TapeMachine.Proofs.PlainProgram
import TapeMachine.Proofs.Sweep

namespace TapeMachine

open Machine

namespace Text

def IsBinary (word : List Char) : Prop := ∀ c ∈ word, c = '0' ∨ c = '1'

theorem IsBinary.of_append {word rest : List Char} (binary : IsBinary (word ++ rest)) : IsBinary word ∧ IsBinary rest :=
  List.forall_mem_append.mp binary

theorem IsBinary.cons_zeros {front : List Char} (binary : IsBinary front) (count : Nat) :
    IsBinary (front ++ '1' :: List.replicate count '0') := by
  refine List.forall_mem_append.mpr ⟨binary, List.forall_mem_cons.mpr ⟨Or.inr rfl, fun c member => ?_⟩⟩
  exact Or.inl (List.eq_of_mem_replicate member)

/-- A carry goes over the ones at the end of a word and stops at the last zero, if there is any. -/
theorem IsBinary.exists_carry {word : List Char} (binary : IsBinary word) :
    (∃ front count, word = front ++ '0' :: List.replicate count '1') ∨ word = List.replicate word.length '1' := by
  induction word using List.reverseRecOn with
  | nil => exact Or.inr rfl
  | append_singleton word last ih =>
    obtain ⟨before, atEnd⟩ := binary.of_append
    rcases atEnd last List.mem_cons_self with rfl | rfl
    · exact Or.inl ⟨word, 0, rfl⟩
    · rcases ih before with ⟨front, count, split⟩ | ones
      · refine Or.inl ⟨front, count + 1, ?_⟩
        rw [List.replicate_succ', split, List.append_assoc, List.cons_append]
      · refine Or.inr ?_
        rw [List.length_append, List.length_singleton, List.replicate_succ', ← ones]

/-- Zeros in the place of ones are worth one more if the number before them is. -/
theorem ofDigitChars_zeros (count value : Nat) :
    Nat.ofDigitChars 2 (List.replicate count '0') (value + 1) =
      Nat.ofDigitChars 2 (List.replicate count '1') value + 1 := by
  induction count generalizing value with
  | zero => rfl
  | succ count ih =>
    rw [List.replicate_succ, List.replicate_succ, Nat.ofDigitChars_cons, Nat.ofDigitChars_cons]
    exact ih (2 * value + 1)

theorem ofDigitChars_carried (front : List Char) (count : Nat) :
    Nat.ofDigitChars 2 (front ++ '1' :: List.replicate count '0') 0 =
      Nat.ofDigitChars 2 (front ++ '0' :: List.replicate count '1') 0 + 1 := by
  rw [Nat.ofDigitChars_append, Nat.ofDigitChars_append, Nat.ofDigitChars_cons, Nat.ofDigitChars_cons]
  exact ofDigitChars_zeros count (2 * Nat.ofDigitChars 2 front 0)

end Text

namespace Program

/-- The rules of the binary increment. -/
def incrementTable : Table where
  rules :=
    [⟨"right", '0', '0', .right, "right"⟩, ⟨"right", '1', '1', .right, "right"⟩, ⟨"right", '_', '_', .left, "carry"⟩,
      ⟨"carry", '1', '0', .left, "carry"⟩, ⟨"carry", '0', '1', .left, "done"⟩, ⟨"carry", '_', '1', .left, "done"⟩,
      ⟨"done", '0', '0', .left, "done"⟩, ⟨"done", '1', '1', .left, "done"⟩, ⟨"done", '_', '_', .right, "halt-accept"⟩]

theorem incrementTable_sound : incrementTable.defect? "right" = none := by rfl

theorem binaryIncrement_machine : binaryIncrement.machine = .ok (start incrementTable "1011" "right") :=
  machine_of_transitions rfl (by rfl) (by decide) rfl incrementTable_sound

section

variable {word : String}

/-- The head has passed over the word and is back on its last digit. -/
theorem increment_turns (binary : Text.IsBinary word.toList) :
    (start incrementTable word "right").Arrives (word.toList.length + 1) "carry" (word.toList.length - 1)
      word.toList.reverse.tail (HalfTape.read word.toList.reverse 0 :: ['_']) := by
  have same : ∀ symbol ∈ word.toList, ⟨"right", symbol, symbol, .right, "right"⟩ ∈ incrementTable.rules := by
    intro symbol member
    rcases binary symbol member with rfl | rfl <;> decide
  have turn : ⟨"right", '_', '_', .left, "carry"⟩ ∈ incrementTable.rules := by decide
  have begun := Arrives.start incrementTable word "right"
  have passed := begun.passRight_all incrementTable_sound same
  simpa using passed.goLeft incrementTable_sound '_' "carry" turn

/-- The carry has made zeros of `count` ones and is before the cells that are left. -/
theorem increment_carries (binary : Text.IsBinary word.toList) {count : Nat} {left : List Char}
    (split : word.toList.reverse = List.replicate count '1' ++ left) :
    (start incrementTable word "right").Arrives (word.toList.length + 1 + count) "carry"
      (word.toList.length - 1 - count) left.tail (HalfTape.read left 0 :: (List.replicate count '0' ++ ['_'])) := by
  have zero : ∀ symbol ∈ List.replicate count '1', ⟨"carry", symbol, '0', .left, "carry"⟩ ∈ incrementTable.rules := by
    intro symbol member
    rw [List.eq_of_mem_replicate member]
    decide
  have turned := increment_turns binary
  rw [split] at turned
  simpa using turned.sweepLeft incrementTable_sound (fun _ => '0') zero

/-- Without a zero the number becomes longer by one digit, which stands left of the input. -/
theorem increment_overflows (ones : word.toList = List.replicate word.toList.length '1') :
    (start incrementTable word "right").Arrives (2 * word.toList.length + 3) "halt-accept" (-1) []
      ('1' :: List.replicate word.toList.length '0') := by
  have binary : Text.IsBinary word.toList := by
    intro c member
    rw [ones] at member
    exact Or.inr (List.eq_of_mem_replicate member)
  have grow : ⟨"carry", '_', '1', .left, "done"⟩ ∈ incrementTable.rules := by decide
  have stop : ⟨"done", '_', '_', .right, "halt-accept"⟩ ∈ incrementTable.rules := by decide
  have split : word.toList.reverse = List.replicate word.toList.length '1' ++ [] := by
    rw [ones, List.reverse_replicate, List.length_replicate, List.append_nil]
  have grown := (increment_carries binary split).goLeft incrementTable_sound '1' "done" grow
  have stopped := grown.goRight incrementTable_sound '_' "halt-accept" stop
  exact stopped.congr (by omega) (by omega) (HalfTape.read_concat_blank [])
    (HalfTape.read_concat_blank ('1' :: List.replicate word.toList.length '0'))

/-- The last zero becomes a one, and the zeros behind it come from the ones that were there. -/
theorem increment_stays (binary : Text.IsBinary word.toList) {front : List Char} {count : Nat}
    (split : word.toList = front ++ '0' :: List.replicate count '1') :
    (start incrementTable word "right").Arrives (2 * word.toList.length + 2) "halt-accept" 0 []
      (front ++ '1' :: List.replicate count '0') := by
  have same : ∀ symbol ∈ front.reverse, ⟨"done", symbol, symbol, .left, "done"⟩ ∈ incrementTable.rules := by
    intro symbol member
    have among : symbol ∈ word.toList := split ▸ List.mem_append_left _ (List.mem_reverse.mp member)
    rcases binary symbol among with rfl | rfl <;> decide
  have carry : ⟨"carry", '0', '1', .left, "done"⟩ ∈ incrementTable.rules := by decide
  have stop : ⟨"done", '_', '_', .right, "halt-accept"⟩ ∈ incrementTable.rules := by decide
  have length : word.toList.length = front.length + 1 + count := by
    rw [split, List.length_append, List.length_cons, List.length_replicate]
    omega
  have backwards : word.toList.reverse = List.replicate count '1' ++ '0' :: front.reverse := by
    rw [split, List.reverse_append, List.reverse_cons, List.reverse_replicate, List.append_assoc, List.singleton_append]
  have carried := (increment_carries binary backwards).goLeft incrementTable_sound '1' "done" carry
  rw [List.tail_cons] at carried
  have returned := carried.sweepLeft_all incrementTable_sound id same
  have stopped := returned.goRight incrementTable_sound '_' "halt-accept" stop
  rw [List.map_id, List.reverse_reverse, List.length_reverse] at stopped
  refine stopped.congr (by omega) (by omega) (HalfTape.read_concat_blank []) fun index => ?_
  rw [← HalfTape.read_concat_blank (front ++ '1' :: List.replicate count '0'), List.append_assoc]
  rfl

theorem increment_of_zero (binary : Text.IsBinary word.toList) {front : List Char} {count : Nat}
    (split : word.toList = front ++ '0' :: List.replicate count '1') :
    ∃ last, (start incrementTable word "right").HaltsAfter (2 * word.toList.length + 2) last ∧
      last.state = "halt-accept" ∧ last.head = 0 ∧
      last.tape = Tape.ofString (String.ofList (front ++ '1' :: List.replicate count '0')) := by
  have arrives := increment_stays binary split
  refine ⟨_, arrives.haltsAfter (by decide), arrives.inState, arrives.atHead, arrives.tape_eq_ofString ?_⟩
  rw [split]
  simp only [List.length_append, List.length_cons, List.length_replicate]

theorem increment_of_ones (ones : word.toList = List.replicate word.toList.length '1') :
    ∃ last, (start incrementTable word "right").HaltsAfter (2 * word.toList.length + 3) last ∧
      last.state = "halt-accept" ∧ last.head = -1 ∧
      last.tape = ⟨['1'], List.replicate word.toList.length '0', word.toList.length⟩ := by
  have arrives := increment_overflows ones
  refine ⟨_, arrives.haltsAfter (by decide), arrives.inState, arrives.atHead, ?_⟩
  refine arrives.tape_eq (Consistent.start _ _ _) ⟨?_, ?_⟩ rfl ?_
  · have marked : HalfTape.Canonical 0 ([] ++ ['1']) := HalfTape.Canonical.concat (by decide) (Nat.zero_le _)
    exact marked
  · have self := HalfTape.Canonical.self (List.replicate word.toList.length '0')
    rwa [List.length_replicate] at self
  · exact (Tape.Around.halves _).goLeft

end

/-- The built-in increment adds one to every binary number, and nothing counts as zero. The result is as long as
the number, but for a number of ones alone: then it is a one with as many zeros behind it, and begins left
of the input. The head ends on its first digit. -/
theorem binaryIncrement_adds_one {word : String} (binary : Text.IsBinary word.toList) :
    ∃ program machine last, byName "binary-increment" = .ok program ∧ program.machine = .ok machine ∧
      (machine.setTape word).HaltsAfter (2 * word.length + if '0' ∈ word.toList then 2 else 3) last ∧
      last.state = "halt-accept" ∧ last.head = last.tape.origin ∧
      Text.IsBinary last.tape.text.toList ∧
      Nat.ofDigitChars 2 last.tape.text.toList 0 = Nat.ofDigitChars 2 word.toList 0 + 1 ∧
      if '0' ∈ word.toList then last.tape.text.length = word.length ∧ last.tape.origin = 0
      else last.tape.text = String.ofList ('1' :: List.replicate word.length '0') ∧ last.tape.origin = -1 := by
  refine ⟨binaryIncrement, start incrementTable "1011" "right", ?_⟩
  rw [← String.length_toList]
  rcases binary.exists_carry with ⟨front, count, split⟩ | ones
  · obtain ⟨last, halts, accepted, head, tape⟩ := increment_of_zero binary split
    have zero : '0' ∈ word.toList := by simp [split]
    have isFront : Text.IsBinary front := Text.IsBinary.of_append (split ▸ binary) |>.1
    have text : last.tape.text.toList = front ++ '1' :: List.replicate count '0' := by
      rw [tape, Tape.text_ofString, String.toList_ofList]
    have origin : last.tape.origin = 0 := by rw [tape]; rfl
    rw [if_pos zero]
    refine ⟨last, rfl, binaryIncrement_machine, halts, accepted, head.trans origin.symm, ?_, ?_, ?_⟩
    · rw [text]
      exact isFront.cons_zeros count
    · rw [text, split, Text.ofDigitChars_carried]
    · rw [if_pos zero, ← String.length_toList, text, split]
      refine ⟨?_, origin⟩
      simp only [List.length_append, List.length_cons, List.length_replicate]
  · obtain ⟨last, halts, accepted, head, tape⟩ := increment_of_ones ones
    have noZero : '0' ∉ word.toList := by
      rw [ones]
      simp
    have text : last.tape.text = String.ofList ('1' :: List.replicate word.toList.length '0') := by rw [tape]; rfl
    have origin : last.tape.origin = -1 := by rw [tape]; rfl
    have empty : Text.IsBinary [] := nofun
    rw [if_neg noZero]
    refine ⟨last, rfl, binaryIncrement_machine, halts, accepted, head.trans origin.symm, ?_, ?_, ?_⟩
    · rw [text, String.toList_ofList]
      exact empty.cons_zeros word.toList.length
    · have carried := Text.ofDigitChars_zeros word.toList.length 0
      rw [← ones] at carried
      rw [text, String.toList_ofList]
      exact carried
    · rw [if_neg noZero]
      exact ⟨text, origin⟩

/-- All digits are ones, so the number grows to the left. -/
theorem binaryIncrement_adds_one_longer :
    Text.IsBinary "111".toList ∧
      ∃ program machine last, byName "binary-increment" = .ok program ∧ program.machine = .ok machine ∧
        (machine.setTape "111").HaltsAfter 9 last ∧ last.state = "halt-accept" ∧ last.head = -1 ∧
        last.tape.text = "1000" := by
  have binary : Text.IsBinary "111".toList := by simp [Text.IsBinary]
  obtain ⟨program, machine, last, named, built, halts, accepted, head, _, _, longer⟩ := binaryIncrement_adds_one binary
  have noZero : '0' ∉ "111".toList := by decide
  rw [if_neg noZero] at longer halts
  exact ⟨binary, program, machine, last, named, built, halts, accepted, head.trans longer.2, longer.1⟩

end Program

end TapeMachine
