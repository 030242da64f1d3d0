namespace TapeMachine

/-- The number `digits * 10 ^ exponent`. -/
structure Decimal where
  digits : Nat
  exponent : Int
deriving DecidableEq

namespace Decimal

/-- A positive binary fraction `mantissa * 2 ^ exponent` and how close its neighbours are. A
`narrow` one is a power of two, and the next smaller float lies at half the distance of the next
larger. -/
structure Binary where
  mantissa : Nat
  exponent : Int
  narrow : Bool

namespace Binary

/-- The binary fraction of a positive finite float. -/
def ofFloat (x : Float) : Binary :=
  let bits := x.toBits.toNat
  let fraction : Nat := bits % Nat.pow 2 52
  let biased : Nat := bits / Nat.pow 2 52 % Nat.pow 2 11
  if biased = 0 then ⟨fraction, -1074, false⟩
  else ⟨Nat.pow 2 52 + fraction, (biased : Int) - 1075, fraction = 0 && 1 < biased⟩

/-- The decimal with the given exponent that is nearest among those that round to `x`, and of two
the even one. The reals that round to `x` reach half way to its neighbours, and include both ends
if the mantissa is even. -/
def onGrid? (x : Binary) (exponent : Int) : Option Decimal :=
  let unit := Nat.pow 2 (x.exponent - 2).toNat * Nat.pow 10 (-exponent).toNat
  let step := Nat.pow 2 (2 - x.exponent).toNat * Nat.pow 10 exponent.toNat
  let value := 4 * x.mantissa * unit
  let low := (if x.narrow then 4 * x.mantissa - 1 else 4 * x.mantissa - 2) * unit
  let high := (4 * x.mantissa + 2) * unit
  let inside (digits : Nat) : Bool :=
    0 < digits && (if x.mantissa % 2 = 0 then low ≤ digits * step && digits * step ≤ high
      else low < digits * step && digits * step < high)
  let below := value / step
  match [below, below + 1].filter inside with
  | [] => none
  | [digits] => some ⟨digits, exponent⟩
  | _ =>
    let twice := 2 * (value % step)
    let down : Bool := twice < step || twice = step && below % 2 = 0
    some ⟨if down then below else below + 1, exponent⟩

/-- Tries `count` grids, each ten times as fine as the one before. -/
def firstOnGrids : Nat → Int → Binary → Decimal
  | 0, exponent, _ => ⟨0, exponent⟩
  | count + 1, exponent, x =>
    (x.onGrid? exponent).getD (firstOnGrids count (exponent - 1) x)

/-- The fewest digits that round to `x`, and the nearest of those. The grids reach from above the
largest float to below the smallest. -/
def shortest (x : Binary) : Decimal := firstOnGrids 660 310 x

end Binary

end Decimal

end TapeMachine
