import TapeMachine.Program.Json
import TapeMachine.Proofs.PrintedValue
import TapeMachine.Step.Json
import TapeMachine.Table.Json

namespace TapeMachine

namespace Json

theorem decodeString_string (text : String) : (Value.string text).node.decodeString = .ok text :=
  text_literalOf text

theorem decodeCharacter_symbol (symbol : Char) : (Value.symbol symbol).node.decodeCharacter = .ok symbol := by
  have single : symbol.toString.toList = [symbol] := by simp
  simp only [Value.symbol, Value.node, Node.decodeCharacter, text_literalOf, bind, Except.bind, single]
  rfl

theorem decodeCount_integer {n : Nat} (fits : n < 2 ^ 64) : (Value.integer n).node.decodeCount = .ok n := by
  rw [Value.node, Node.decodeCount, value_numeralOf_natural fits]
  rfl

/-- The numbers of 64 bits with a sign. -/
def FitsSigned (value : Int) : Prop := -2 ^ 63 ≤ value ∧ value < 2 ^ 63

theorem value_numeralOf {value : Int} (fits : FitsSigned value) :
    (numeralOf value).value = .ok (if value < 0 then .negative value else .natural value.toNat) := by
  by_cases negative : value < 0
  · rw [if_pos negative, value_numeralOf_negative negative fits.1]
  · obtain ⟨n, rfl⟩ := Int.eq_ofNat_of_zero_le (Int.not_lt.mp negative)
    have small : n < 2 ^ 64 := by
      have high := fits.2
      omega
    rw [if_neg negative, value_numeralOf_natural small, Int.toNat_natCast]

theorem decodePosition_integer {position : Int} (fits : FitsSigned position) :
    (Value.integer position).node.decodePosition = .ok position := by
  rw [Value.node, Node.decodePosition, value_numeralOf fits]
  by_cases negative : position < 0
  · rw [if_pos negative]
    rfl
  · have small : position.toNat < Nat.pow 2 63 := by
      have high := fits.2
      change position.toNat < 2 ^ 63
      omega
    have same : (position.toNat : Int) = position := Int.toNat_of_nonneg (Int.not_lt.mp negative)
    rw [if_neg negative]
    change (if position.toNat < Nat.pow 2 63 then Except.ok (position.toNat : Int) else _) = _
    rw [if_pos small, same]

theorem decodeBoolean_boolean (value : Bool) : (Value.boolean value).node.decodeBoolean = .ok value := rfl

/-- A list is decoded if each of its items is. -/
theorem decodeAll_nodes {α : Type} {encode : α → Value} {decode : Node → Decoded α} {values : List α}
    (each : ∀ value ∈ values, decode (encode value).node = .ok value) :
    Items.decodeAll decode none (Value.nodes (values.map encode)) = .ok values := by
  induction values with
  | nil => rfl
  | cons value values ih =>
    have others := ih fun other member => each other (List.mem_cons_of_mem value member)
    rw [List.map_cons, Value.nodes, Items.decodeAll, each value (List.mem_cons_self ..), others]
    rfl

theorem Value.node_object (members : List (String × Value)) :
    (Value.object members).node = .object (Value.memberNodes members) none := rfl

theorem foldMembers_cons {σ : Type} (take : σ → String → Node → Decoded σ) (stop : Option Break) (state : σ)
    (name : String) (value : Value) (members : List (String × Value)) :
    foldMembers take stop state (Value.memberNodes ((name, value) :: members)) =
      (take state name value.node).bind fun next => foldMembers take stop next (Value.memberNodes members) := by
  rw [Value.memberNodes, foldMembers, text_literalOf]
  rfl

theorem Variants.payloadOf_eq {α : Type} {variants : Variants α} {name : String} {decode : Node → Decoded α}
    (known : variants.payload name = some decode) : variants.payloadOf name = .ok decode := by
  unfold payloadOf
  rw [known]

theorem Variants.decode_object {α : Type} {variants : Variants α} {name : String} {decode : Node → Decoded α}
    (known : variants.payload name = some decode) (value : Value) :
    variants.decode (Value.object [(name, value)]).node = decode value.node := by
  change (literalOf name).text.bind _ = _
  rw [text_literalOf]
  change (variants.payloadOf name).bind _ = _
  rw [payloadOf_eq known]
  change (decode value.node).bind Except.ok = decode value.node
  cases decode value.node <;> rfl

theorem Variants.decodeKept_object {α : Type} {variants : Variants α} {name : String} {decode : Node → Decoded α}
    (known : variants.payload name = some decode) (value : Value) :
    variants.decodeKept (Value.object [(name, value)]).node = decode value.node := by
  change (literalOf name).text.bind _ = _
  rw [text_literalOf]
  change (variants.payloadOf name).bind _ = _
  rw [payloadOf_eq known]
  rfl

end Json

open Json

/-- A token that names a movement is read as that movement, so it is not kept as an unknown one. -/
def Direction.Recognized (move : Direction) : Prop := move ≠ .unknown "l" ∧ move ≠ .unknown "r"

theorem Direction.ofToken_token {move : Direction} (recognized : move.Recognized) :
    ofToken move.token = move := by
  cases move with
  | left => rfl
  | right => rfl
  | unknown token =>
    have notLeft : token ≠ "l" := fun same => recognized.1 (congrArg _ same)
    have notRight : token ≠ "r" := fun same => recognized.2 (congrArg _ same)
    rw [Direction.token, ofToken, if_neg notLeft, if_neg notRight]

theorem Direction.recognized_ofToken (token : String) : (ofToken token).Recognized := by
  unfold ofToken
  split
  · exact ⟨nofun, nofun⟩
  · split
    · exact ⟨nofun, nofun⟩
    · rename_i notLeft notRight
      exact ⟨fun same => notLeft (unknown.inj same), fun same => notRight (unknown.inj same)⟩

theorem Direction.decode_json {move : Direction} (recognized : move.Recognized) :
    decode move.json.node = .ok move := by
  rw [decode, json, decodeString_string]
  exact congrArg Except.ok (ofToken_token recognized)

theorem Rule.decode_json {rule : Rule} (recognized : rule.move.Recognized) :
    decode rule.json.node = .ok rule := by
  simp only [decode, Record.decode, record, json, Value.node_object, ofMembers, foldMembers_cons]
  simp only [Draft.take, fill, decodeString_string, decodeCharacter_symbol, Direction.decode_json recognized]
  rfl

theorem Rule.decodeKept_json {rule : Rule} (recognized : rule.move.Recognized) :
    record.decodeKept 5 "struct Transition" rule.json.node = .ok rule :=
  decode_json recognized

theorem Table.decode_json {table : Table} (recognized : ∀ rule ∈ table.rules, rule.move.Recognized) :
    decode table.json.node = .ok table := by
  have rules := decodeAll_nodes fun rule member => Rule.decode_json (recognized rule member)
  rw [json, Value.node, decode, rules]
  rfl

/-- The place of a rule fits into 64 bits. -/
def Abort.Fits : Abort → Prop
  | undefinedTransition .. => True
  | invalidDirection index _ => index < 2 ^ 64

theorem Abort.undefinedRecord_ofMembers (state : State) (symbol : Symbol) :
    undefinedRecord.ofMembers (Value.memberNodes [("state", .string state), ("symbol", .symbol symbol)]) none =
      .ok (undefinedTransition state symbol) := by
  simp only [undefinedRecord, foldMembers_cons]
  simp only [UndefinedDraft.take, fill, decodeString_string, decodeCharacter_symbol]
  rfl

theorem Abort.invalidRecord_ofMembers {index : Nat} (fits : index < 2 ^ 64) (token : String) :
    invalidRecord.ofMembers (Value.memberNodes [("index", .integer index), ("token", .string token)]) none =
      .ok (invalidDirection index token) := by
  simp only [invalidRecord, foldMembers_cons]
  simp only [InvalidDraft.take, fill, decodeString_string, decodeCount_integer fits]
  rfl

theorem Abort.decode_json {abort : Abort} (fits : abort.Fits) : decode abort.json.node = .ok abort := by
  cases abort with
  | undefinedTransition state symbol =>
    exact (Variants.decode_object rfl _).trans (undefinedRecord_ofMembers state symbol)
  | invalidDirection index token =>
    exact (Variants.decode_object rfl _).trans (invalidRecord_ofMembers fits token)

theorem Abort.decodeKept_json {abort : Abort} (fits : abort.Fits) : decodeKept abort.json.node = .ok abort := by
  cases abort with
  | undefinedTransition state symbol =>
    exact (Variants.decodeKept_object rfl _).trans (undefinedRecord_ofMembers state symbol)
  | invalidDirection index token =>
    exact (Variants.decodeKept_object rfl _).trans (invalidRecord_ofMembers fits token)

theorem Mode.decode_json (mode : Mode) : decode mode.json.node = .ok mode := by
  cases mode <;> rfl

theorem Program.decodeInitialState_json (state : Option State) :
    decodeInitialState ((state.map Value.string).getD .null).node = .ok (state.filter (· ≠ "")) := by
  cases state with
  | none => rfl
  | some state =>
    change (Value.string state).node.decodeString.bind _ = _
    rw [decodeString_string]
    change Except.ok (if state = "" then none else some state) = _
    by_cases unnamed : state = "" <;> simp [Option.filter, unnamed]

theorem Program.decode_json (program : Program) :
    decode program.json.node = .ok { program with initialState := program.initialState.filter (· ≠ "") } := by
  simp only [decode, Record.decode, record, json, Value.node_object, foldMembers_cons]
  simp only [Draft.take, fill, decodeString_string, decodeInitialState_json, Mode.decode_json]
  rfl

end TapeMachine
