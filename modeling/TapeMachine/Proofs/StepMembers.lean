import TapeMachine.Proofs.PrintedRecord

namespace TapeMachine

open Json

namespace Json

/-- Members of different names are taken one after the other, given by what each of them adds to those
before it. -/
theorem foldMembers_map {σ : Type} {take : σ → String → Node → Decoded σ} {key : String → Literal}
    (spelled : ∀ name, (key name).text = .ok name) (state : List (String × Value) → σ)
    {members : List (String × Value)} (distinct : (members.map Prod.fst).Nodup)
    (takes : ∀ done, ∀ member ∈ members, member.1 ∉ done.map Prod.fst →
      take (state done) member.1 member.2.node = .ok (state (member :: done)))
    (done : List (String × Value)) (fresh : ∀ member ∈ members, member.1 ∉ done.map Prod.fst) :
    foldMembers take none (state done) (members.map fun member => (key member.1, member.2.node)) =
      .ok (state (members.reverse ++ done)) := by
  induction members generalizing done with
  | nil => rfl
  | cons member members ih =>
    obtain ⟨unused, distinct⟩ := List.nodup_cons.mp distinct
    have added : ∀ other ∈ members, other.1 ∉ (member :: done).map Prod.fst := by
      intro other among taken
      rcases List.mem_cons.mp taken with same | before
      · exact unused (same ▸ List.mem_map_of_mem among)
      · exact fresh other (List.mem_cons_of_mem member among) before
    have next := takes done member (List.mem_cons_self ..) (fresh member (List.mem_cons_self ..))
    rw [List.map_cons, foldMembers, spelled]
    change (take (state done) member.1 member.2.node).bind _ = _
    rw [next, List.reverse_cons, List.append_assoc]
    exact ih distinct (fun before other among => takes before other (List.mem_cons_of_mem member among)) _ added

/-- The key of a member that was kept. -/
def plainKey (name : String) : Literal := ⟨name.toList.map .char, none⟩

def keptMember (member : String × Value) : Member := (plainKey member.1, member.2.node)

theorem text_plainKey (name : String) : (plainKey name).text = .ok name := by
  have decoded (symbols : List Char) : decodePieces none (symbols.map .char) = .ok symbols := by
    induction symbols with
    | nil => rfl
    | cons c symbols ih => rw [List.map_cons, decodePieces, ih]; rfl
  rw [Literal.text, plainKey, decoded]
  exact congrArg Except.ok String.ofList_toList

theorem check_string (depth : Nat) (text : String) : (Value.string text).node.check depth = .ok () := by
  rw [Value.node, Node.check, text_literalOf]
  rfl

theorem check_integer (depth : Nat) {value : Int} {number : Number} (has : (numeralOf value).value = .ok number) :
    (Value.integer value).node.check depth = .ok () := by
  rw [Value.node, Node.check, has]
  rfl

theorem check_list {depth : Nat} (deep : 1 < depth) {items : List Value}
    (each : ∀ item ∈ items, item.node.check (depth - 1) = .ok ()) :
    (Value.list items).node.check depth = .ok () := by
  have checked : Node.checkItems (depth - 1) (Value.nodes items) = .ok () := by
    induction items with
    | nil => rfl
    | cons item items ih =>
      rw [Value.nodes, Node.checkItems, each item (List.mem_cons_self ..)]
      exact ih fun other among => each other (List.mem_cons_of_mem item among)
  rw [Value.node, Node.check, enter, if_neg (Nat.not_le.mpr deep), checked]
  rfl

theorem check_object {depth : Nat} (deep : 1 < depth) {members : List (String × Value)}
    (each : ∀ member ∈ members, member.2.node.check (depth - 1) = .ok ()) :
    (Value.object members).node.check depth = .ok () := by
  have checked : Node.checkMembers (depth - 1) (Value.memberNodes members) = .ok () := by
    induction members with
    | nil => rfl
    | cons member members ih =>
      obtain ⟨name, value⟩ := member
      rw [Value.memberNodes, Node.checkMembers, text_literalOf]
      change (value.node.check (depth - 1)).bind _ = _
      rw [each (name, value) (List.mem_cons_self ..)]
      exact ih fun other among => each other (List.mem_cons_of_mem _ among)
  rw [Value.node, Node.check, enter, if_neg (Nat.not_le.mpr deep), checked]
  rfl

end Json

namespace Step

/-- The numbers of a step fit into 64 bits, and its movement is recognized. -/
def Fits : Step → Prop
  | applied _ head _ rule => FitsSigned head ∧ rule.move.Recognized
  | reverted _ head _ => FitsSigned head
  | aborted reason => reason.Fits
  | halted _ | noOp => True

def outcome : Step → String
  | applied .. => "applied"
  | reverted .. => "reverted"
  | halted _ => "halted"
  | aborted _ => "aborted"
  | noOp => "no_op"

/-- The members of a step behind its outcome. -/
def fields (step : Step) : List (String × Value) := step.members.tail

theorem members_eq (step : Step) : step.members = ("outcome", .string step.outcome) :: step.fields := by
  cases step <;> rfl

/-- How the fields of a step are decoded, with their number. -/
def record : Step → Record Step × Nat
  | applied .. => (appliedRecord, 4)
  | reverted .. => (revertedRecord, 3)
  | halted _ => (haltedRecord, 1)
  | aborted _ => (abortedRecord, 1)
  | noOp => (noOpRecord, 0)

/-- The draft that has all fields of a step. -/
def draft : Step → Draft
  | applied tape head isTerminal rule =>
    { tape := some tape, head := some head, isTerminal := some isTerminal, rule := some rule }
  | reverted tape head isTerminal => { tape := some tape, head := some head, isTerminal := some isTerminal }
  | halted state => { state := some state }
  | aborted reason => { reason := some reason }
  | noOp => {}

namespace Draft

/-- A member that gives one of the fields of a draft, and can be decoded. -/
inductive Gives (draft : Draft) : String → Value → Prop where
  | tape {tape : List Symbol} (has : draft.tape = some tape) : Gives draft "tape" (.list (tape.map .symbol))
  | head {head : Int} (has : draft.head = some head) (fits : FitsSigned head) : Gives draft "head" (.integer head)
  | isTerminal {isTerminal : Bool} (has : draft.isTerminal = some isTerminal) :
    Gives draft "is_terminal" (.boolean isTerminal)
  | rule {rule : Rule} (has : draft.rule = some rule) (recognized : rule.move.Recognized) :
    Gives draft "transition" rule.json
  | state {state : State} (has : draft.state = some state) : Gives draft "state" (.string state)
  | reason {reason : Abort} (has : draft.reason = some reason) (fits : reason.Fits) :
    Gives draft "reason" reason.json

/-- The draft when only the members of these names have been read. -/
def restrict (draft : Draft) (names : List String) : Draft where
  tape := if "tape" ∈ names then draft.tape else none
  head := if "head" ∈ names then draft.head else none
  isTerminal := if "is_terminal" ∈ names then draft.isTerminal else none
  rule := if "transition" ∈ names then draft.rule else none
  state := if "state" ∈ names then draft.state else none
  reason := if "reason" ∈ names then draft.reason else none

theorem restrict_congr (draft : Draft) {names others : List String} (same : ∀ name, name ∈ names ↔ name ∈ others) :
    draft.restrict names = draft.restrict others := by
  simp only [restrict, same]

theorem decodeSymbols_list (symbols : List Symbol) :
    decodeSymbols (Value.list (symbols.map .symbol)).node = .ok symbols :=
  decodeAll_nodes fun symbol _ => decodeCharacter_symbol symbol

/-- A member that was not there before adds its field. -/
theorem take_restrict {draft : Draft} {name : String} {value : Value} {fields names : List String}
    (gives : draft.Gives name value) (among : name ∈ fields) (fresh : name ∉ names) :
    take fields (draft.restrict names) name value.node = .ok (draft.restrict (name :: names)) := by
  cases gives with
  | tape has => simp [take, among, fresh, restrict, fill, decodeSymbols_list, has]
  | head has fits => simp [take, among, fresh, restrict, fill, decodePosition_integer fits, has]
  | isTerminal has => simp [take, among, fresh, restrict, fill, decodeBoolean_boolean, has]
  | rule has recognized => simp [take, among, fresh, restrict, fill, Rule.decodeKept_json recognized, has]
  | state has => simp [take, among, fresh, restrict, fill, decodeString_string, has]
  | reason has fits => simp [take, among, fresh, restrict, fill, Abort.decodeKept_json fits, has]

/-- What gives a field can be kept until the outcome is known. -/
theorem Gives.check {draft : Draft} {name : String} {value : Value} (gives : draft.Gives name value) :
    value.node.check fieldDepth = .ok () := by
  cases gives with
  | tape => exact check_list (by decide) (by simp [Value.symbol, check_string])
  | head _ fits => exact check_integer _ (value_numeralOf fits)
  | isTerminal => rfl
  | rule => exact check_object (by decide) (by simp [Value.symbol, Direction.json, check_string])
  | state => exact check_string _ _
  | @reason reason _ fits =>
    cases reason with
    | undefinedTransition =>
      refine check_object (by decide) (List.forall_mem_singleton.mpr (check_object (by decide) ?_))
      simp [Value.symbol, check_string]
    | invalidDirection index =>
      refine check_object (by decide) (List.forall_mem_singleton.mpr (check_object (by decide) ?_))
      simp [check_string, check_integer _ (value_numeralOf_natural fits)]

/-- Members that give fields of a draft under different names are read as what they give, in any order. -/
theorem draftOf_kept {draft : Draft} {fields : List String} {members : List (String × Value)}
    (gives : ∀ member ∈ members, draft.Gives member.1 member.2) (among : ∀ member ∈ members, member.1 ∈ fields)
    (distinct : (members.map Prod.fst).Nodup) :
    draftOf fields (members.map keptMember) none = .ok (draft.restrict (members.map Prod.fst)) := by
  have nothing : draft.restrict [] = {} := by simp [restrict]
  have taken := foldMembers_map text_plainKey (fun done => draft.restrict (done.map Prod.fst)) distinct
    (fun done member here fresh => take_restrict (gives member here) (among member here) fresh) [] (by simp)
  have all : draft.restrict ((members.reverse ++ []).map Prod.fst) = draft.restrict (members.map Prod.fst) :=
    draft.restrict_congr fun name => by simp
  rw [draftOf, ← nothing, ← all]
  exact taken

end Draft

def fieldDecoder (step : Step) : FieldDecoder := step.record.1.decodeKept step.record.2 step.record.1.expected

theorem decodeOutcome_outcome (step : Step) : decodeOutcome (Value.string step.outcome).node = .ok step.fieldDecoder := by
  rw [Value.node, decodeOutcome, text_literalOf]
  cases step <;> rfl

/-- What has been gathered when these members of a step have been read, the latest first. -/
def gathered (step : Step) (done : List (String × Value)) : Gathered where
  outcome := if "outcome" ∈ done.map Prod.fst then some step.fieldDecoder else none
  kept := (done.filter fun member => member.1 ≠ "outcome").map keptMember

theorem gives_fields {step : Step} (fits : step.Fits) :
    ∀ member ∈ step.fields, step.draft.Gives member.1 member.2 := by
  cases step with
  | applied tape head isTerminal rule =>
    obtain ⟨position, recognized⟩ := fits
    simp only [fields, members, List.tail_cons, List.forall_mem_cons]
    exact ⟨.tape rfl, .head rfl position, .isTerminal rfl, .rule rfl recognized, List.forall_mem_nil _⟩
  | reverted tape head isTerminal =>
    simp only [fields, members, List.tail_cons, List.forall_mem_cons]
    exact ⟨.tape rfl, .head rfl fits, .isTerminal rfl, List.forall_mem_nil _⟩
  | halted state => exact List.forall_mem_singleton.mpr (.state rfl)
  | aborted reason => exact List.forall_mem_singleton.mpr (.reason rfl fits)
  | noOp => exact List.forall_mem_nil _

theorem restrict_draft (step : Step) : step.draft.restrict (step.fields.map Prod.fst) = step.draft := by
  cases step <;> rfl

theorem nodup_members (step : Step) : (step.members.map Prod.fst).Nodup := by
  cases step <;> simp [members]

theorem outcome_not_mem_fields (step : Step) : "outcome" ∉ step.fields.map Prod.fst := by
  have distinct := step.nodup_members
  rw [members_eq, List.map_cons] at distinct
  exact (List.nodup_cons.mp distinct).1

theorem nodup_fields (step : Step) : (step.fields.map Prod.fst).Nodup := by
  have distinct := step.nodup_members
  rw [members_eq, List.map_cons] at distinct
  exact (List.nodup_cons.mp distinct).2

theorem draftOf_fields {step : Step} (fits : step.Fits) {members : List (String × Value)}
    (order : members.Perm step.fields) :
    draftOf (step.fields.map Prod.fst) (members.map keptMember) none = .ok step.draft := by
  have names := order.map Prod.fst
  rw [Draft.draftOf_kept (fun member among => gives_fields fits member (order.mem_iff.mp among))
    (fun member among => names.mem_iff.mp (List.mem_map_of_mem among)) (names.nodup_iff.mpr step.nodup_fields),
    step.draft.restrict_congr fun name => names.mem_iff, restrict_draft]

theorem ofMembers_kept {step : Step} (fits : step.Fits) {members : List (String × Value)}
    (order : members.Perm step.fields) : step.record.1.ofMembers (members.map keptMember) none = .ok step := by
  have read := draftOf_fields fits order
  cases step <;> simp only [fields, Step.members, List.tail_cons, List.map_cons, List.map_nil] at read
  case applied => simp only [record, appliedRecord, read]; rfl
  case reverted => simp only [record, revertedRecord, read]; rfl
  case halted => simp only [record, haltedRecord, read]; rfl
  case aborted => simp only [record, abortedRecord, read]; rfl
  case noOp => rfl

theorem ne_outcome {step : Step} {member : String × Value} (field : member ∈ step.fields) :
    member.1 ≠ "outcome" :=
  fun same => step.outcome_not_mem_fields (same ▸ List.mem_map_of_mem field)

/-- Wherever the outcome stands, it is found, and the other members are kept. -/
theorem take_gathered {step : Step} (fits : step.Fits) {done : List (String × Value)} {member : String × Value}
    (among : member ∈ step.members) (fresh : member.1 ∉ done.map Prod.fst) :
    (step.gathered done).take member.1 member.2.node = .ok (step.gathered (member :: done)) := by
  rw [members_eq] at among
  rcases List.mem_cons.mp among with rfl | field
  · simp [Gathered.take, gathered, fresh, fill, decodeOutcome_outcome]
  · have other := ne_outcome field
    have checked := (gives_fields fits member field).check
    have unnamed : "outcome" ∈ done.map Prod.fst ↔ "outcome" ∈ (member :: done).map Prod.fst := by
      rw [List.map_cons, List.mem_cons, or_iff_right (Ne.symm other)]
    have kept : ((member :: done).filter fun member => member.1 ≠ "outcome") =
        member :: done.filter fun member => member.1 ≠ "outcome" :=
      List.filter_cons_of_pos (decide_eq_true other)
    rw [Gathered.take, if_neg other, checked]
    simp only [gathered, ← unnamed, kept]
    rfl

theorem filter_members (step : Step) : (step.members.filter fun member => member.1 ≠ "outcome") = step.fields := by
  rw [members_eq, List.filter_cons_of_neg (by simp), List.filter_eq_self]
  exact fun member field => decide_eq_true (ne_outcome field)

/-- The members of a step may stand in any order. -/
theorem decode_members {step : Step} (fits : step.Fits) {members : List (String × Value)}
    (order : members.Perm step.members) : decode (Value.object members).node = .ok step := by
  have names := order.map Prod.fst
  have named : "outcome" ∈ members.map Prod.fst := names.mem_iff.mpr (by rw [members_eq]; exact List.mem_cons_self ..)
  have gathered := foldMembers_map text_literalOf step.gathered (names.nodup_iff.mpr step.nodup_members)
    (fun _ member here fresh => take_gathered fits (order.mem_iff.mp here) fresh) [] (by simp)
  have kept : (step.gathered (members.reverse ++ [])).kept.reverse =
      (members.filter fun member => member.1 ≠ "outcome").map keptMember := by
    simp [Step.gathered, List.filter_reverse]
  have found : (step.gathered (members.reverse ++ [])).outcome = some step.fieldDecoder := by
    refine if_pos ?_
    rwa [List.append_nil, List.map_reverse, List.mem_reverse]
  have others : (members.filter fun member => member.1 ≠ "outcome").Perm step.fields := by
    rw [← filter_members]
    exact order.filter _
  rw [Value.node_object, Value.memberNodes_eq_map]
  change (foldMembers Gathered.take none (step.gathered []) _).bind _ = _
  rw [gathered]
  change (require "outcome" _).bind _ = _
  rw [found, kept]
  exact ofMembers_kept fits others

end Step

end TapeMachine
