import TapeMachine.Proofs.Derivation
import TapeMachine.Proofs.Verdict

namespace TapeMachine.Machine

/-- A step applies the rule. -/
def Applies (machine : Machine) (rule : Rule) : Prop :=
  ∃ tape head isTerminal, machine.step.1 = .applied tape head isTerminal rule

/-- A step comes to the rule and aborts, because the rule names no movement. -/
def Refuses (machine : Machine) (rule : Rule) : Prop :=
  ∃ index token, machine.table.get? index = some rule ∧ rule.move = .unknown token ∧
    machine.step.1 = .aborted (.invalidDirection index token)

theorem nextRule?_of_halted {machine : Machine} (halted : machine.isHalted = true) : machine.nextRule? = none :=
  if_pos halted

theorem nextRule?_of_running {machine : Machine} (running : machine.isHalted = false) :
    machine.nextRule? = (machine.table.find? machine.state machine.symbol).map (·.2) :=
  if_neg (by simp [running])

theorem nextRule?_of_firstMatch {machine : Machine} (running : machine.isHalted = false) {index : Nat} {rule : Rule}
    (first : machine.table.FirstMatch machine.state machine.symbol index rule) : machine.nextRule? = some rule := by
  rw [nextRule?_of_running running, Table.find?_eq_some_iff.mpr first]
  rfl

/-- What a step answers, together with the rule that is named for it beforehand. -/
inductive Foretold (machine : Machine) : Option Rule → Step → Prop
  | halted : Foretold machine none (.halted machine.state)
  | undefined : Foretold machine none (.aborted (.undefinedTransition machine.state machine.symbol))
  | invalid {index rule token} : machine.table.get? index = some rule → rule.move = .unknown token →
      Foretold machine (some rule) (.aborted (.invalidDirection index token))
  | applied {rule tape head isTerminal} : Foretold machine (some rule) (.applied tape head isTerminal rule)

theorem foretold (machine : Machine) : machine.Foretold machine.nextRule? machine.step.1 := by
  have acts := machine.acts
  rw [step_eq_of_acts acts]
  generalize machine.action = action at acts
  cases acts with
  | stay halted =>
    rw [nextRule?_of_halted halted]
    exact .halted
  | undefined running unfit =>
    rw [nextRule?_of_running running, Table.find?_eq_none_iff.mpr unfit]
    exact .undefined
  | @invalid index rule running first move =>
    rw [nextRule?_of_firstMatch running first]
    cases known : rule.move with
    | unknown token => exact .invalid first.atIndex known
    | _ => simp [known, Direction.offset?] at move
  | apply running first move =>
    rw [nextRule?_of_firstMatch running first]
    exact .applied

theorem nextRule?_eq_some_iff {machine : Machine} {rule : Rule} :
    machine.nextRule? = some rule ↔ machine.Applies rule ∨ machine.Refuses rule := by
  have foretold := machine.foretold
  unfold Applies Refuses
  generalize machine.nextRule? = named at foretold
  generalize machine.step.1 = answer at foretold
  cases foretold with
  | halted => simp
  | undefined => simp
  | @invalid index other token atIndex move =>
    constructor
    · intro same
      cases same
      exact Or.inr ⟨index, token, atIndex, move, rfl⟩
    · rintro (⟨_, _, _, applied⟩ | ⟨_, _, atOther, _, refused⟩)
      · cases applied
      · cases refused
        rw [← atIndex, atOther]
  | applied => simp [eq_comm]

theorem nextRule?_eq_none_iff {machine : Machine} :
    machine.nextRule? = none ↔ machine.step.1 = .halted machine.state ∨
      machine.step.1 = .aborted (.undefinedTransition machine.state machine.symbol) := by
  have foretold := machine.foretold
  generalize machine.nextRule? = named at foretold
  generalize machine.step.1 = answer at foretold
  cases foretold <;> simp

theorem Refuses.not_applies {machine : Machine} {rule : Rule} (refuses : machine.Refuses rule) :
    ¬ machine.Applies rule := by
  obtain ⟨index, token, _, _, refused⟩ := refuses
  rintro ⟨tape, head, isTerminal, applied⟩
  rw [refused] at applied
  cases applied

/-- The rule that is named for the next step is applied by it, or makes it abort because it has no
direction. So the name is right wherever the step does not abort for that reason, and no rule is named
exactly where the machine has halted or has no rule. -/
theorem nextRule?_foretells (machine : Machine) :
    (∀ rule, machine.nextRule? = some rule ↔ machine.Applies rule ∨ machine.Refuses rule) ∧
    ((∀ rule, machine.nextRule? = some rule ↔ machine.Applies rule) ↔ ¬ ∃ rule, machine.Refuses rule) ∧
    (machine.nextRule? = none ↔ machine.step.1 = .halted machine.state ∨
      machine.step.1 = .aborted (.undefinedTransition machine.state machine.symbol)) := by
  refine ⟨fun rule => nextRule?_eq_some_iff, ⟨?_, ?_⟩, nextRule?_eq_none_iff⟩
  · rintro right ⟨rule, refuses⟩
    have named := nextRule?_eq_some_iff.mpr (Or.inr refuses)
    exact refuses.not_applies ((right rule).mp named)
  · intro never rule
    rw [nextRule?_eq_some_iff]
    exact or_iff_left fun refuses => never ⟨rule, refuses⟩

/-- The rule for the symbol under the head is named, and the step aborts. -/
theorem nextRule?_of_unknown_move :
    let rule : Rule := ⟨"q", '0', '0', .unknown "x", "q"⟩
    let machine := start ⟨[rule]⟩ "0" "q"
    Reachable machine ∧ machine.nextRule? = some rule ∧ machine.step.1 = .aborted (.invalidDirection 0 "x") ∧
      ¬ (machine.nextRule? = some rule ↔ machine.Applies rule) := by
  intro rule machine
  have built : ofTable? machine.table "0" none = some machine := rfl
  have named : machine.nextRule? = some rule := by decide
  have refused : machine.step.1 = .aborted (.invalidDirection 0 "x") := by decide
  have refuses : machine.Refuses rule := ⟨0, "x", rfl, rfl, refused⟩
  exact ⟨.ofTable built, named, refused, fun same => refuses.not_applies (same.mp named)⟩

end TapeMachine.Machine
