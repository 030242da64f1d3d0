import TapeMachine.Program.Json
import TapeMachine.Proofs.Outcome

namespace TapeMachine

open Json

namespace Program

/-- The parts that a program has. -/
inductive Field where
  | name
  | tape
  | transitions
  | initialState
  | mode
deriving DecidableEq

/-- One part of a program with its content. -/
inductive Part where
  | name (text : String)
  | tape (text : String)
  | transitions (text : String)
  | initialState (state : Option State)
  | mode (mode : Mode)

namespace Field

def all : List Field := [name, tape, transitions, initialState, mode]

/-- The names that a member for the field may have. -/
def names : Field → List String
  | name => ["name"]
  | tape => ["tape"]
  | transitions => ["transitions"]
  | initialState => ["initial_state", "initialState"]
  | mode => ["mode"]

/-- The name of the field in faults. -/
def label (field : Field) : String := field.names.headD ""

def ofName? (name : String) : Option Field := all.find? fun field => name ∈ field.names

theorem ofName?_eq_some_iff {name : String} {field : Field} : ofName? name = some field ↔ name ∈ field.names := by
  constructor
  · intro found
    simpa using List.find?_some found
  · intro member
    cases field <;> simp only [names, List.mem_cons, List.not_mem_nil, or_false] at member
    case initialState => rcases member with rfl | rfl <;> rfl
    all_goals
      subst member
      rfl

theorem ofName?_eq_none_iff {name : String} : ofName? name = none ↔ ∀ field : Field, name ∉ field.names := by
  rw [Option.eq_none_iff_forall_ne_some]
  exact forall_congr' fun field => not_congr ofName?_eq_some_iff

def decode : Field → Node → Decoded Part
  | name, node => Part.name <$> node.decodeString
  | tape, node => Part.tape <$> node.decodeString
  | transitions, node => Part.transitions <$> node.decodeString
  | initialState, node => Part.initialState <$> decodeInitialState node
  | mode, node => Part.mode <$> Mode.decode node

/-- What a program has where no member tells it anything. -/
def default : Field → Part
  | name => .name ""
  | tape => .tape ""
  | transitions => .transitions ""
  | initialState => .initialState none
  | mode => .mode .normal

end Field

def Part.field : Part → Field
  | name _ => .name
  | tape _ => .tape
  | transitions _ => .transitions
  | initialState _ => .initialState
  | mode _ => .mode

theorem Field.field_default (field : Field) : field.default.field = field := by
  cases field <;> rfl

theorem Field.field_of_decode {field : Field} {node : Node} {part : Part} (decoded : field.decode node = .ok part) :
    part.field = field := by
  cases field
  all_goals
    obtain ⟨content, -, rfl⟩ := map_eq_ok_iff.mp decoded
    rfl

def part (program : Program) : Field → Part
  | .name => .name program.name
  | .tape => .tape program.tape
  | .transitions => .transitions program.transitions
  | .initialState => .initialState program.initialState
  | .mode => .mode program.mode

theorem ext_part {program other : Program} (same : ∀ field, program.part field = other.part field) :
    program = other := by
  obtain ⟨name, tape, transitions, initialState, mode⟩ := program
  obtain ⟨⟩ := other
  cases same .name
  cases same .tape
  cases same .transitions
  cases same .initialState
  cases same .mode
  rfl

namespace Draft

def part? (draft : Draft) : Field → Option Part
  | .name => draft.name.map .name
  | .tape => draft.tape.map .tape
  | .transitions => draft.transitions.map .transitions
  | .initialState => draft.initialState.map .initialState
  | .mode => draft.mode.map .mode

def put (draft : Draft) : Part → Draft
  | .name text => { draft with name := some text }
  | .tape text => { draft with tape := some text }
  | .transitions text => { draft with transitions := some text }
  | .initialState state => { draft with initialState := some state }
  | .mode mode => { draft with mode := some mode }

theorem part?_put (draft : Draft) (part : Part) (field : Field) :
    (draft.put part).part? field = if field = part.field then some part else draft.part? field := by
  cases part <;> cases field <;> rfl

theorem part?_put_eq_none_iff {draft : Draft} {part : Part} {field : Field} :
    (draft.put part).part? field = none ↔ field ≠ part.field ∧ draft.part? field = none := by
  rw [part?_put]
  by_cases same : field = part.field <;> simp [same]

theorem part_finish (draft : Draft) (field : Field) :
    draft.finish.part field = (draft.part? field).getD field.default := by
  obtain ⟨name, tape, transitions, initialState, mode⟩ := draft
  cases field
  case name => cases name <;> rfl
  case tape => cases tape <;> rfl
  case transitions => cases transitions <;> rfl
  case initialState => cases initialState <;> rfl
  case mode => cases mode <;> rfl

theorem fill_eq {α : Type} {draft : Draft} {keep : Option α → Draft} {wrap : α → Part}
    (kept : ∀ content, keep (some content) = draft.put (wrap content)) (label : String) (place : Option α)
    (value : Decoded α) :
    (do return keep (← fill label place value)) =
      if (place.map wrap).isSome then .error (.duplicateField label) else draft.put <$> wrap <$> value := by
  cases place with
  | some _ => rfl
  | none =>
    cases value with
    | error _ => rfl
    | ok content => exact congrArg Except.ok (kept content)

/-- A field is taken once, by whichever of its names. -/
theorem take_of_mem_names {draft : Draft} {name : String} {field : Field} (known : name ∈ field.names) (node : Node) :
    draft.take name node =
      if (draft.part? field).isSome then .error (.duplicateField field.label)
      else draft.put <$> field.decode node := by
  cases field
  case initialState =>
    obtain rfl | known := List.mem_cons.mp known
    · exact fill_eq (fun _ => rfl) _ _ _
    · obtain rfl := List.mem_singleton.mp known
      exact fill_eq (fun _ => rfl) _ _ _
  all_goals
    obtain rfl := List.mem_singleton.mp known
    exact fill_eq (fun _ => rfl) _ _ _

theorem take_of_unknown (draft : Draft) {name : String} (unknown : ∀ field : Field, name ∉ field.names) (node : Node) :
    draft.take name node = (fun _ => draft) <$> node.skip := by
  unfold take
  split
  case h_1 => exact absurd (.head _) (unknown .name)
  case h_2 => exact absurd (.head _) (unknown .tape)
  case h_3 => exact absurd (.head _) (unknown .transitions)
  case h_4 => exact absurd (.head _) (unknown .initialState)
  case h_5 => exact absurd (.tail _ (.head _)) (unknown .initialState)
  case h_6 => exact absurd (.head _) (unknown .mode)
  case h_7 => cases node.skip <;> rfl

end Draft

/-- What a member tells of a program, if anything. -/
def told? (member : Member) : Decoded (Option Part) := do
  match Field.ofName? (← member.1.text) with
  | some field => some <$> field.decode member.2
  | none =>
    member.2.skip
    return none

/-- A member that can be taken, if its field is free. -/
def Sound (member : Member) : Prop := ∃ told, told? member = .ok told

theorem told?_of_mem_names {key : Literal} {name : String} {field : Field} (spelled : key.text = .ok name)
    (known : name ∈ field.names) (value : Node) : told? (key, value) = some <$> field.decode value := by
  simp only [told?, spelled, bind, Except.bind, Field.ofName?_eq_some_iff.mpr known]

theorem told?_of_decode {key : Literal} {name : String} {field : Field} {value : Node} {part : Part}
    (spelled : key.text = .ok name) (known : name ∈ field.names) (decoded : field.decode value = .ok part) :
    told? (key, value) = .ok (some part) := by
  rw [told?_of_mem_names spelled known, decoded]
  rfl

theorem told?_of_unknown {key : Literal} {name : String} (spelled : key.text = .ok name)
    (unknown : ∀ field : Field, name ∉ field.names) (value : Node) :
    told? (key, value) = (fun _ => none) <$> value.skip := by
  simp only [told?, spelled, bind, Except.bind, Field.ofName?_eq_none_iff.mpr unknown]
  cases value.skip <;> rfl

theorem exists_decode_of_told? {member : Member} {part : Part} (told : told? member = .ok (some part)) :
    part.field.decode member.2 = .ok part := by
  obtain ⟨name, -, told⟩ := bind_eq_ok_iff.mp told
  split at told
  · obtain ⟨other, decoded, same⟩ := map_eq_ok_iff.mp told
    cases same
    rwa [Field.field_of_decode decoded]
  · obtain ⟨_, -, told⟩ := bind_eq_ok_iff.mp told
    cases told

/-- All that the members tell, in their order. -/
def parts (members : List Member) : List Part := members.filterMap fun member => (told? member).toOption.join

theorem parts_cons_of_part {member : Member} {part : Part} (told : told? member = .ok (some part))
    (members : List Member) : parts (member :: members) = part :: parts members :=
  List.filterMap_cons_some (by rw [told]; rfl)

theorem parts_cons_of_nothing {member : Member} (told : told? member = .ok none) (members : List Member) :
    parts (member :: members) = parts members :=
  List.filterMap_cons_none (by rw [told]; rfl)

theorem exists_of_mem_parts {members : List Member} {part : Part} (among : part ∈ parts members) :
    ∃ member ∈ members, told? member = .ok (some part) := by
  obtain ⟨member, isMember, tells⟩ := List.mem_filterMap.mp among
  refine ⟨member, isMember, ?_⟩
  cases told : told? member with
  | error fault => rw [told] at tells; cases tells
  | ok other =>
    rw [told] at tells
    cases tells
    rfl

namespace Draft

/-- One member is taken if it is sound and its field is still free. -/
theorem foldMembers_cons_eq_ok_iff {draft result : Draft} {member : Member} {members : List Member} :
    foldMembers take none draft (member :: members) = .ok result ↔
      ∃ told, told? member = .ok told ∧ (∀ part ∈ told, draft.part? part.field = none) ∧
        foldMembers take none (told.elim draft draft.put) members = .ok result := by
  obtain ⟨key, value⟩ := member
  cases spelled : key.text with
  | error fault => simp [foldMembers, told?, spelled, bind, Except.bind]
  | ok name =>
    simp only [foldMembers, spelled, bind, Except.bind]
    cases known : Field.ofName? name with
    | none =>
      have unknown := Field.ofName?_eq_none_iff.mp known
      rw [take_of_unknown draft unknown, told?_of_unknown spelled unknown]
      cases value.skip <;> simp [Functor.map, Except.map]
    | some field =>
      have known := Field.ofName?_eq_some_iff.mp known
      rw [take_of_mem_names known, told?_of_mem_names spelled known]
      cases decoded : field.decode value with
      | error fault => cases draft.part? field <;> simp [Functor.map, Except.map]
      | ok part =>
        obtain rfl := Field.field_of_decode decoded
        cases place : draft.part? part.field <;> simp [Functor.map, Except.map, place]

/-- The members of an object are taken if each of them is sound and no field is told twice. -/
theorem foldMembers_eq_ok_iff {draft result : Draft} {members : List Member} :
    foldMembers take none draft members = .ok result ↔
      (∀ member ∈ members, Sound member) ∧ ((parts members).map Part.field).Nodup ∧
        (∀ part ∈ parts members, draft.part? part.field = none) ∧ result = (parts members).foldl put draft := by
  induction members generalizing draft with
  | nil =>
    constructor
    · intro taken
      cases taken
      exact ⟨nofun, .nil, nofun, rfl⟩
    · rintro ⟨-, -, -, rfl⟩
      rfl
  | cons member members ih =>
    rw [foldMembers_cons_eq_ok_iff, List.forall_mem_cons]
    constructor
    · rintro ⟨told, tells, free, taken⟩
      obtain ⟨sound, once, others, rfl⟩ := ih.mp taken
      cases told with
      | none =>
        rw [parts_cons_of_nothing tells]
        exact ⟨⟨⟨_, tells⟩, sound⟩, once, others, rfl⟩
      | some part =>
        have unfilled (other : Part) (among : other ∈ parts members) := part?_put_eq_none_iff.mp (others other among)
        rw [parts_cons_of_part tells, List.map_cons, List.nodup_cons, List.forall_mem_cons]
        refine ⟨⟨⟨_, tells⟩, sound⟩, ⟨?_, once⟩, ⟨free part rfl, fun other among => (unfilled other among).2⟩, rfl⟩
        intro again
        obtain ⟨other, among, same⟩ := List.mem_map.mp again
        exact (unfilled other among).1 same
    · rintro ⟨⟨⟨told, tells⟩, sound⟩, once, free, result⟩
      refine ⟨told, tells, ?_⟩
      cases told with
      | none =>
        rw [parts_cons_of_nothing tells] at once free result
        exact ⟨nofun, ih.mpr ⟨sound, once, free, result⟩⟩
      | some part =>
        rw [parts_cons_of_part tells] at once free result
        obtain ⟨apart, once⟩ := List.nodup_cons.mp once
        obtain ⟨untaken, free⟩ := List.forall_mem_cons.mp free
        have distinct (other : Part) (among : other ∈ parts members) : other.field ≠ part.field :=
          fun same => apart (same ▸ List.mem_map_of_mem among)
        refine ⟨fun other same => by cases same; exact untaken, ih.mpr ⟨sound, once, fun other among => ?_, result⟩⟩
        exact part?_put_eq_none_iff.mpr ⟨distinct other among, free other among⟩

theorem part?_foldl_put_of_notMem (draft : Draft) {told : List Part} {field : Field}
    (untold : field ∉ told.map Part.field) : (told.foldl put draft).part? field = draft.part? field := by
  induction told generalizing draft with
  | nil => rfl
  | cons part told ih =>
    simp only [List.map_cons, List.mem_cons, not_or] at untold
    obtain ⟨apart, untold⟩ := untold
    rw [List.foldl_cons, ih _ untold, part?_put, if_neg apart]

theorem part?_foldl_put_of_mem (draft : Draft) {told : List Part} (once : (told.map Part.field).Nodup) {part : Part}
    (member : part ∈ told) : (told.foldl put draft).part? part.field = some part := by
  induction told generalizing draft with
  | nil => cases member
  | cons first told ih =>
    obtain ⟨apart, once⟩ := List.nodup_cons.mp once
    rw [List.foldl_cons]
    obtain rfl | among := List.mem_cons.mp member
    · rw [part?_foldl_put_of_notMem _ apart, part?_put, if_pos rfl]
    · exact ih _ once among

end Draft

/-- The members of an object describe a program: each of them is sound, none of its fields is told twice, and
what no member tells is left at its default. -/
structure Describes (members : List Member) (program : Program) : Prop where
  sound : ∀ member ∈ members, Sound member
  once : ((parts members).map Part.field).Nodup
  told : ∀ part ∈ parts members, program.part part.field = part
  untold : ∀ field, field ∉ (parts members).map Part.field → program.part field = field.default

theorem Describes.unique {members : List Member} {program other : Program} (describes : Describes members program)
    (another : Describes members other) : program = other := by
  refine ext_part fun field => ?_
  by_cases member : field ∈ (parts members).map Part.field
  · obtain ⟨part, among, rfl⟩ := List.mem_map.mp member
    rw [describes.told part among, another.told part among]
  · rw [describes.untold field member, another.untold field member]

theorem describes_finish {members : List Member} (sound : ∀ member ∈ members, Sound member)
    (once : ((parts members).map Part.field).Nodup) : Describes members ((parts members).foldl Draft.put {}).finish where
  sound := sound
  once := once
  told part among := by rw [Draft.part_finish, Draft.part?_foldl_put_of_mem _ once among, Option.getD_some]
  untold field untold := by
    rw [Draft.part_finish, Draft.part?_foldl_put_of_notMem _ untold]
    cases field <;> rfl

/-- An object is decoded to the program that its members describe, and to none if they describe none. -/
theorem decode_object_eq_ok_iff {members : List Member} {program : Program} :
    decode (.object members none) = .ok program ↔ Describes members program := by
  change Draft.finish <$> foldMembers Draft.take none {} members = .ok program ↔ _
  rw [map_eq_ok_iff]
  constructor
  · rintro ⟨draft, taken, rfl⟩
    obtain ⟨sound, once, -, rfl⟩ := Draft.foldMembers_eq_ok_iff.mp taken
    exact describes_finish sound once
  · intro describes
    have free : ∀ part ∈ parts members, ({} : Draft).part? part.field = none := by
      intro part _
      cases part <;> rfl
    exact ⟨_, Draft.foldMembers_eq_ok_iff.mpr ⟨describes.sound, describes.once, free, rfl⟩,
      (describes_finish describes.sound describes.once).unique describes⟩

end Program

end TapeMachine
