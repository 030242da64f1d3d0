import TapeMachine.Proofs.Spelling

namespace TapeMachine.Json

namespace Value

mutual

/-- A printed value as it is read back. -/
def node : Value → Node
  | null => .null
  | boolean value => .boolean value
  | integer value => .number (numeralOf value)
  | string text => .string (literalOf text)
  | list items => .list (nodes items) none
  | object members => .object (memberNodes members) none

def nodes : List Value → List Node
  | [] => []
  | item :: items => item.node :: nodes items

def memberNodes : List (String × Value) → List Member
  | [] => []
  | (key, value) :: members => (literalOf key, value.node) :: memberNodes members

end

theorem written_integerText (value : Int) : (node (.integer value)).Written (integerText value) := by
  have written := written_toDigits value
  by_cases negative : value < 0
  · rw [integerText, if_pos negative]
    exact .negative (decide_eq_true negative) written
  · rw [integerText, if_neg negative]
    exact .positive (decide_eq_false negative) written

mutual

/-- What is printed is a JSON text. -/
theorem written_print : (value : Value) → value.node.Written value.print
  | null => .null
  | boolean true => .isTrue
  | boolean false => .isFalse
  | integer value => written_integerText value
  | string text => .string (written_stringText text)
  | list [] => .emptyList .nil
  | list (item :: items) => .list (written_printItems (item :: items) nofun)
  | object [] => .emptyObject .nil
  | object (member :: members) => .object (written_printMembers (member :: members) nofun)

theorem written_printItems : (items : List Value) → items ≠ [] → ItemsWritten (nodes items) (printItems items)
  | [], nonempty => absurd rfl nonempty
  | [item], _ => by simpa [nodes, printItems] using ItemsWritten.last .nil (written_print item) .nil
  | item :: next :: items, _ => by
    have others := written_printItems (next :: items) nofun
    simpa [nodes, printItems] using ItemsWritten.comma .nil (written_print item) .nil others

theorem written_printMembers :
    (members : List (String × Value)) → members ≠ [] → MembersWritten (memberNodes members) (printMembers members)
  | [], nonempty => absurd rfl nonempty
  | [(key, value)], _ => by
    have member := MemberWritten.colon (written_stringText key) .nil .nil (written_print value)
    simpa [memberNodes, printMembers] using MembersWritten.last .nil member .nil
  | (key, value) :: next :: members, _ => by
    have member := MemberWritten.colon (written_stringText key) .nil .nil (written_print value)
    have others := written_printMembers (next :: members) nofun
    simpa [memberNodes, printMembers] using MembersWritten.comma .nil member .nil others

end

theorem memberNodes_eq_map (members : List (String × Value)) :
    memberNodes members = members.map fun member => (literalOf member.1, member.2.node) := by
  induction members with
  | nil => rfl
  | cons member members ih => rw [memberNodes, ih, List.map_cons]

theorem isText_text (value : Value) : value.node.IsText value.text :=
  ⟨[], value.print, [], .nil, value.written_print, .nil, by simp [text]⟩

/-- Decoding the text of a value is decoding the value. -/
theorem decodeText_text {α : Type} (decode : Node → Decoded α) (value : Value) :
    decodeText decode value.text = decode value.node :=
  decodeText_of_isText decode value.isText_text

end Value

end TapeMachine.Json
