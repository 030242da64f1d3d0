import TapeMachine.Json.Node

namespace TapeMachine.Json

/-- The value of a numeral: exact while it is an integer of 64 bits, signed if it has to be. -/
inductive Number where
  | natural (value : Nat)
  | negative (value : Int)
  | float (value : Float)

def Number.found : Number → Found
  | natural value => .integer value
  | negative value => .integer value
  | float value => .float value

def maxNatural : Nat := Nat.pow 2 64 - 1

def digitValue (c : Char) : Nat := c.toNat - '0'.toNat

/-- Appends digits to a number as long as it fits into 64 bits. Returns it with the number of digits
that were taken. -/
def appendDigits (value : Nat) : List Char → Nat × Nat
  | [] => (value, 0)
  | c :: rest =>
    let next := value * 10 + digitValue c
    if next ≤ maxNatural then
      let (value, taken) := appendDigits next rest
      (value, taken + 1)
    else (value, 0)

def powerOfTen (exponent : Nat) : Float := Float.ofScientific 1 false exponent

/-- Divides by a power of ten. What has become zero stays zero. -/
def scaleDown (value : Float) (exponent : Nat) : Float :=
  if exponent ≤ 308 then value / powerOfTen exponent
  else if value == 0 then value
  else scaleDown (value / powerOfTen 308) (exponent - 308)
termination_by exponent
decreasing_by omega

/-- Multiplies by a power of ten, unless the result is too large for a float. -/
def scaleUp? (value : Float) (exponent : Nat) : Option Float :=
  if exponent ≤ 308 then
    let scaled := value * powerOfTen exponent
    if scaled.isInf then none else some scaled
  else if value == 0 then some value
  else none

def scale? (value : Float) (exponent : Int) : Option Float :=
  if 0 ≤ exponent then scaleUp? value exponent.toNat else some (scaleDown value (-exponent).toNat)

def Numeral.isInteger (numeral : Numeral) : Bool :=
  numeral.fraction.isEmpty && numeral.exponent.isEmpty

def Numeral.exponentValue (numeral : Numeral) : Int :=
  let size : Int := numeral.exponent.foldl (fun n c => n * 10 + digitValue c) 0
  if numeral.exponentNegative then -size else size

/-- The value of a numeral as a float. The significand holds 64 bits: further digits before the
point only count, and further digits behind it are dropped. -/
def Numeral.float? (numeral : Numeral) : Option Float :=
  let (significand, taken) := appendDigits 0 numeral.whole
  let (significand, places) := appendDigits significand numeral.fraction
  let exponent := (numeral.whole.length - taken : Int) - places + numeral.exponentValue
  let sign (value : Float) : Float := if numeral.negative then -value else value
  (scale? significand.toUInt64.toFloat exponent).map sign

def Numeral.value (numeral : Numeral) : Except Fault Number :=
  let (value, taken) := appendDigits 0 numeral.whole
  if numeral.isInteger ∧ taken = numeral.whole.length ∧ numeral.negative = false then
    .ok (.natural value)
  else if numeral.isInteger ∧ taken = numeral.whole.length ∧ 0 < value ∧ value ≤ Nat.pow 2 63 then
    .ok (.negative (-value))
  else match numeral.float? with
    | some value => .ok (.float value)
    | none => .error (.malformed .numberOutOfRange)

end TapeMachine.Json
