import Mathlib.Logic.Relation
import TapeMachine.Proofs.JsonReading
import TapeMachine.Proofs.PrintedValue
import TapeMachine.Proofs.ProgramMembers

namespace TapeMachine

open Json

theorem Json.Items.of_nextD {α : Type} {list rest : Items} {decode : Node → Decoded α} {missing value : α}
    (next : list.nextD decode missing = .ok (value, rest)) :
    value = missing ∨ ∃ node, decode node = .ok value := by
  obtain ⟨⟨next, behind⟩, given, same⟩ := bind_eq_ok_iff.mp next
  cases same
  unfold Items.next? at given
  split at given
  · obtain ⟨_, -, given⟩ := bind_eq_ok_iff.mp given
    cases given
    exact .inl rfl
  · obtain ⟨value, decoded, given⟩ := bind_eq_ok_iff.mp given
    cases given
    exact .inr ⟨_, decoded⟩

theorem Json.Node.refuse_ne_ok {α : Type} {node : Node} {expected : String} {value : α} :
    node.refuse expected ≠ .ok value := by
  intro given
  obtain ⟨_, -, given⟩ := bind_eq_ok_iff.mp given
  cases given

namespace Program

/-- A value that leaves the initial state open: null, or a state without a name. -/
inductive Vacant : Node → Prop
  | null : Vacant .null
  | unnamed {literal : Literal} : literal.text = .ok "" → Vacant (.string literal)

/-- One change to the members of an object that leaves the program as it is. A member may be inserted if its
name is neither that of a field nor the other name of the initial state, whatever its value. -/
inductive Edit : List Member → List Member → Prop
  | permuted {members others} : members.Perm others → Edit members others
  | inserted {before after key value name text} : Literal.text key = .ok name →
      (∀ field : Field, name ∉ field.names) → value.Written text →
      Edit (before ++ after) (before ++ (key, value) :: after)
  | removed {before after key value name field} : Literal.text key = .ok name → name ∈ Field.names field →
      field.decode value = .ok field.default → Edit (before ++ (key, value) :: after) (before ++ after)
  | renamed {before after key newKey value name newName} : Literal.text key = .ok name →
      Literal.text newKey = .ok newName → name ∈ Field.initialState.names → newName ∈ Field.initialState.names →
      Edit (before ++ (key, value) :: after) (before ++ (newKey, value) :: after)
  | vacated {before after key value newValue name} : Literal.text key = .ok name → name ∈ Field.initialState.names →
      Vacant value → Vacant newValue → Edit (before ++ (key, value) :: after) (before ++ (key, newValue) :: after)

theorem decode_of_vacant {value : Node} (vacant : Vacant value) :
    Field.initialState.decode value = .ok (.initialState none) := by
  cases vacant with
  | null => rfl
  | @unnamed literal spelled =>
    change Part.initialState <$> literal.text.bind _ = _
    rw [spelled]
    rfl

theorem parts_append (members others : List Member) : parts (members ++ others) = parts members ++ parts others :=
  List.filterMap_append

namespace Describes

variable {members others before after : List Member} {program : Program}

/-- What the members tell may stand in any order. -/
theorem of_perm (describes : Describes members program) (sound : ∀ member ∈ others, Sound member)
    (order : (parts others).Perm (parts members)) : Describes others program where
  sound := sound
  once := (order.map Part.field).nodup_iff.mpr describes.once
  told part among := describes.told part (order.mem_iff.mp among)
  untold field untold := describes.untold field fun member => untold ((order.map Part.field).mem_iff.mpr member)

/-- Members that tell the same stand for each other. -/
theorem replace {member other : Member} (same : told? other = told? member)
    (describes : Describes (before ++ member :: after) program) : Describes (before ++ other :: after) program := by
  have equal : parts (before ++ other :: after) = parts (before ++ member :: after) := by
    simp only [parts, List.filterMap_append, List.filterMap_cons, same]
  obtain ⟨soundBefore, sound⟩ := List.forall_mem_append.mp describes.sound
  obtain ⟨⟨told, tells⟩, soundAfter⟩ := List.forall_mem_cons.mp sound
  have soundOther : Sound other := ⟨told, same.trans tells⟩
  exact describes.of_perm (List.forall_mem_append.mpr ⟨soundBefore, List.forall_mem_cons.mpr ⟨soundOther, soundAfter⟩⟩)
    (.of_eq equal)

theorem insert {member : Member} (nothing : told? member = .ok none) (describes : Describes (before ++ after) program) :
    Describes (before ++ member :: after) program := by
  have equal : parts (before ++ member :: after) = parts (before ++ after) := by
    rw [parts_append, parts_append, parts_cons_of_nothing nothing]
  obtain ⟨soundBefore, soundAfter⟩ := List.forall_mem_append.mp describes.sound
  have soundMember : Sound member := ⟨none, nothing⟩
  exact describes.of_perm (List.forall_mem_append.mpr ⟨soundBefore, List.forall_mem_cons.mpr ⟨soundMember, soundAfter⟩⟩)
    (.of_eq equal)

/-- A field that is told its default need not be told anything. -/
theorem remove {member : Member} {field : Field} (same : told? member = .ok (some field.default))
    (describes : Describes (before ++ member :: after) program) : Describes (before ++ after) program := by
  have all : parts (before ++ member :: after) = parts before ++ field.default :: parts after := by
    rw [parts_append, parts_cons_of_part same]
  have fewer : (parts (before ++ after)).Sublist (parts (before ++ member :: after)) := by
    rw [all, parts_append]
    exact (List.sublist_cons_self ..).append_left _
  refine ⟨?_, (fewer.map Part.field).nodup describes.once, fun part among => describes.told part (fewer.subset among), ?_⟩
  · intro another among
    exact describes.sound another (((List.sublist_cons_self ..).append_left _).subset among)
  · intro other untold
    by_cases isField : other = field
    · subst isField
      have told := describes.told other.default (by rw [all]; simp)
      rwa [other.field_default] at told
    · refine describes.untold other ?_
      rw [all, List.map_append, List.map_cons, field.field_default]
      rw [parts_append, List.map_append] at untold
      simpa [isField] using untold

end Describes

/-- Whatever program the members describe, they still describe it after a change. -/
theorem Edit.describes {members others : List Member} {program : Program} (edit : Edit members others)
    (describes : Describes members program) : Describes others program := by
  cases edit with
  | permuted order =>
    exact describes.of_perm (fun member among => describes.sound member (order.mem_iff.mpr among))
      (order.symm.filterMap _)
  | inserted spelled unknown written =>
    refine describes.insert ?_
    rw [told?_of_unknown spelled unknown, Node.skip, written.skipFault?_eq]
    rfl
  | removed spelled known isDefault =>
    exact describes.remove (told?_of_decode spelled known isDefault)
  | renamed spelled newSpelled known newKnown =>
    exact describes.replace (by rw [told?_of_mem_names spelled known, told?_of_mem_names newSpelled newKnown])
  | vacated spelled known vacant newVacant =>
    have told := told?_of_decode spelled known (decode_of_vacant vacant)
    exact describes.replace ((told?_of_decode spelled known (decode_of_vacant newVacant)).trans told.symm)

theorem describes_of_edits {members others : List Member} {program : Program}
    (edits : Relation.ReflTransGen Edit members others) (describes : Describes members program) :
    Describes others program := by
  induction edits with
  | refl => exact describes
  | tail _ edit ih => exact edit.describes ih

/-- No initial state without a name is read. -/
theorem ne_unnamed_of_decodeInitialState {node : Node} {state : Option State}
    (decoded : decodeInitialState node = .ok state) : state ≠ some "" := by
  rintro rfl
  unfold decodeInitialState at decoded
  split at decoded
  · cases decoded
  · obtain ⟨state, -, given⟩ := bind_eq_ok_iff.mp decoded
    by_cases unnamed : state = ""
    · rw [if_pos unnamed] at given
      cases given
    · rw [if_neg unnamed] at given
      cases given
      exact unnamed rfl

theorem Describes.initialState_ne_unnamed {members : List Member} {program : Program}
    (describes : Describes members program) : program.initialState ≠ some "" := by
  intro unnamed
  have isPart : program.part .initialState = .initialState (some "") := congrArg Part.initialState unnamed
  by_cases told : Field.initialState ∈ (parts members).map Part.field
  · obtain ⟨part, among, same⟩ := List.mem_map.mp told
    have given := describes.told part among
    rw [same, isPart] at given
    subst given
    obtain ⟨member, -, tells⟩ := exists_of_mem_parts among
    obtain ⟨state, decoded, same⟩ := map_eq_ok_iff.mp (exists_decode_of_told? tells)
    cases same
    exact ne_unnamed_of_decodeInitialState decoded rfl
  · have default := describes.untold _ told
    rw [isPart] at default
    cases default

theorem initialState_ne_unnamed_of_ofItems {list rest : Items} {program : Program}
    (decoded : record.ofItems list = .ok (program, rest)) : program.initialState ≠ some "" := by
  obtain ⟨⟨name, list⟩, -, decoded⟩ := bind_eq_ok_iff.mp decoded
  obtain ⟨⟨tape, list⟩, -, decoded⟩ := bind_eq_ok_iff.mp decoded
  obtain ⟨⟨transitions, list⟩, -, decoded⟩ := bind_eq_ok_iff.mp decoded
  obtain ⟨⟨initialState, list⟩, state, decoded⟩ := bind_eq_ok_iff.mp decoded
  obtain ⟨⟨mode, list⟩, -, decoded⟩ := bind_eq_ok_iff.mp decoded
  cases decoded
  obtain rfl | ⟨node, read⟩ := Items.of_nextD state
  · exact nofun
  · exact ne_unnamed_of_decodeInitialState read

/-- A program is written as an object, or as the list of its parts. -/
theorem list_or_object_of_decode {node : Node} {text : String} {program : Program} (isText : node.IsText text)
    (decoded : decode node = .ok program) :
    (∃ items, node = .list items none) ∨ ∃ members, node = .object members none := by
  obtain ⟨_, _, _, _, written, _, _⟩ := isText
  cases written with
  | emptyList | list => exact .inl ⟨_, rfl⟩
  | emptyObject | object => exact .inr ⟨_, rfl⟩
  | null | isTrue | isFalse | positive | negative | string => exact absurd decoded Node.refuse_ne_ok

theorem initialState_ne_unnamed_of_list {items : List Node} {program : Program}
    (decoded : decode (.list items none) = .ok program) : program.initialState ≠ some "" := by
  obtain ⟨⟨value, rest⟩, read, closed⟩ := bind_eq_ok_iff.mp decoded
  obtain ⟨_, -, same⟩ := bind_eq_ok_iff.mp closed
  cases same
  exact initialState_ne_unnamed_of_ofItems read

/-- Only the members of known names decide which program a text holds: it is what they tell, and otherwise at
its defaults. The members may be permuted, members of other names be added with whatever value, members at their
default be left out, and the initial state go by its other name or be left open in another way: the program stays
the same. -/
theorem known_members_decide {text : String} {program : Program} (decoded : ofJson text = .ok program) :
    program.initialState ≠ some "" ∧
      ((∃ items, (Node.list items none).IsText text) ∨ ∃ members, (Node.object members none).IsText text) ∧
      ∀ members : List Member, (Node.object members none).IsText text →
        Describes members program ∧
          ∀ (others : List Member) (changed : String), Relation.ReflTransGen Edit members others →
            (Node.object others none).IsText changed → ofJson changed = .ok program := by
  obtain ⟨node, isText, decodedNode⟩ := decodeText_eq_ok_iff.mp decoded
  refine ⟨?named, ?shape, ?edited⟩
  case named =>
    obtain ⟨items, rfl⟩ | ⟨members, rfl⟩ := list_or_object_of_decode isText decodedNode
    · exact initialState_ne_unnamed_of_list decodedNode
    · exact (decode_object_eq_ok_iff.mp decodedNode).initialState_ne_unnamed
  case shape =>
    obtain ⟨items, rfl⟩ | ⟨members, rfl⟩ := list_or_object_of_decode isText decodedNode
    · exact .inl ⟨items, isText⟩
    · exact .inr ⟨members, isText⟩
  case edited =>
    intro members isObject
    rw [ofJson, decodeText_of_isText decode isObject, decode_object_eq_ok_iff] at decoded
    refine ⟨decoded, fun others changed edits isChanged => ?_⟩
    rw [ofJson, decodeText_of_isText decode isChanged, decode_object_eq_ok_iff]
    exact describes_of_edits edits decoded

/-- Here a mode at its default is left out, the initial state comes first by its other name and as a state
without a name, and a member is added that holds members of its own. -/
theorem known_members_decide_respelled :
    let text := "\x7b\"mode\":\"Normal\",\"tape\":\"01\",\"initial_state\":null\x7d"
    let changed := "\x7b\"initialState\":\"\",\"x\":[\x7b\"tape\":-1\x7d,true],\"tape\":\"01\"\x7d"
    let program : Program := ⟨"", "01", "", none, .normal⟩
    ofJson text = .ok program ∧ ofJson changed = .ok program := by
  intro text changed program
  let mode := ("mode", Mode.json .normal)
  let tape := ("tape", Value.string "01")
  let added := ("x", Value.list [.object [("tape", .integer (-1))], .boolean true])
  let unset := ("initial_state", Value.null)
  let unsetOther := ("initialState", Value.null)
  let unnamed := ("initialState", Value.string "")
  have printed : text = (Value.object [mode, tape, unset]).text := by decide
  have printedChanged : changed = (Value.object [unnamed, added, tape]).text := by decide
  have decoded : ofJson text = .ok program := by
    rw [printed, ofJson, Value.decodeText_text]
    rfl
  have removed : Edit (Value.memberNodes [mode, tape, unset]) (Value.memberNodes [tape, unset]) :=
    @Edit.removed [] _ _ _ _ .mode (text_literalOf _) (.head _) rfl
  have turned : Edit (Value.memberNodes [tape, unset]) (Value.memberNodes [unset, tape]) := .permuted (.swap ..)
  have renamed : Edit (Value.memberNodes [unset, tape]) (Value.memberNodes [unsetOther, tape]) :=
    @Edit.renamed [] _ _ _ _ _ _ (text_literalOf _) (text_literalOf _) (.head _) (.tail _ (.head _))
  have vacated : Edit (Value.memberNodes [unsetOther, tape]) (Value.memberNodes [unnamed, tape]) :=
    @Edit.vacated [] _ _ _ _ _ (text_literalOf _) (.tail _ (.head _)) .null (.unnamed (text_literalOf _))
  have inserted : Edit (Value.memberNodes [unnamed, tape]) (Value.memberNodes [unnamed, added, tape]) :=
    @Edit.inserted (Value.memberNodes [unnamed]) _ _ _ _ _ (text_literalOf _) (by rintro ⟨⟩ <;> decide)
      added.2.written_print
  have edits := ((((Relation.ReflTransGen.single removed).tail turned).tail renamed).tail vacated).tail inserted
  have isText : (Node.object (Value.memberNodes [mode, tape, unset]) none).IsText text := by
    rw [printed]
    exact Value.isText_text (.object _)
  have isChanged : (Node.object (Value.memberNodes [unnamed, added, tape]) none).IsText changed := by
    rw [printedChanged]
    exact Value.isText_text (.object _)
  exact ⟨decoded, ((known_members_decide decoded).2.2 _ isText).2 _ changed edits isChanged⟩

end Program

end TapeMachine
