import TapeMachine.Decimal.Shortest

namespace TapeMachine.Decimal

/-- How a decimal is written: in positional form while the exponent of its first digit lies between
`least` and `most`, and in scientific form otherwise. -/
structure Format where
  least : Int
  most : Int

/-- Positional from 0.00001 to below 10^16. -/
def messageFormat : Format := ⟨-5, 15⟩

/-- The digits with a point after the first `whole` of them, and at least one digit on either
side. -/
def pointed (digits : List Char) (whole : Int) : List Char :=
  if whole ≤ 0 then ['0', '.'] ++ List.replicate (-whole).toNat '0' ++ digits
  else if digits.length ≤ whole.toNat then
    digits ++ List.replicate (whole.toNat - digits.length) '0' ++ ['.', '0']
  else digits.take whole.toNat ++ ['.'] ++ digits.drop whole.toNat

/-- The exponent with its sign, in as few digits as it needs. -/
def exponentText (exponent : Int) : List Char :=
  ['e', if exponent < 0 then '-' else '+'] ++ Nat.toDigits 10 exponent.natAbs

def Format.write (format : Format) (decimal : Decimal) : List Char :=
  let digits := Nat.toDigits 10 decimal.digits
  let lead := decimal.exponent + digits.length - 1
  if format.least ≤ lead ∧ lead ≤ format.most then pointed digits (lead + 1)
  else match digits with
    | [digit] => digit :: exponentText lead
    | digits => digits.take 1 ++ ['.'] ++ digits.drop 1 ++ exponentText lead

/-- A finite float in the fewest digits that read back as the same float. -/
def floatText (x : Float) : String :=
  let sign := if x.toBits.toNat / Nat.pow 2 63 = 1 then ['-'] else []
  let digits :=
    if x == 0 then ['0', '.', '0'] else messageFormat.write (Binary.ofFloat x.abs).shortest
  String.ofList (sign ++ digits)

end TapeMachine.Decimal
