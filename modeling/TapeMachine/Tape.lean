import TapeMachine.Symbol

namespace TapeMachine

/-- One half of a tape: a list of cells, nearest to the middle first, and blanks for ever after. -/
abbrev HalfTape := List Symbol

namespace HalfTape

def read (cells : HalfTape) (index : Nat) : Symbol := cells.getD index blank

/-- A cell in front of others. A blank with nothing behind it is not stored, unless `kept` says
that it belongs to the input. -/
def put (kept : Bool) (cell : Symbol) (rest : HalfTape) : HalfTape :=
  if cell = blank ∧ rest = [] ∧ kept = false then [] else cell :: rest

/-- Writes at `index`. The first `kept` cells stay stored whatever they hold; behind them the last
stored cell is never blank. A blank beyond the stored cells is already there. -/
def write (kept : Nat) : HalfTape → Nat → Symbol → HalfTape
  | [], index, symbol => if symbol = blank then [] else List.replicate index blank ++ [symbol]
  | _ :: rest, 0, symbol => put (0 < kept) symbol rest
  | cell :: rest, index + 1, symbol => put (0 < kept) cell (write (kept - 1) rest index symbol)

end HalfTape

/-- A tape without ends. `right` holds the positions 0, 1, 2, ... and `left` the positions -1, -2,
-3, ...; the input is the first `seeded` cells of `right`. -/
structure Tape where
  left : HalfTape
  right : HalfTape
  seeded : Nat
deriving DecidableEq

namespace Tape

def ofString (input : String) : Tape := ⟨[], input.toList, input.toList.length⟩

def read (tape : Tape) : Int → Symbol
  | .ofNat index => HalfTape.read tape.right index
  | .negSucc index => HalfTape.read tape.left index

def write (tape : Tape) (position : Int) (symbol : Symbol) : Tape :=
  match position with
  | .ofNat index => { tape with right := HalfTape.write tape.seeded tape.right index symbol }
  | .negSucc index => { tape with left := HalfTape.write 0 tape.left index symbol }

/-- The stored cells from left to right. -/
def toList (tape : Tape) : List Symbol := tape.left.reverse ++ tape.right

def text (tape : Tape) : String := String.ofList tape.toList

/-- The position of the leftmost stored cell. -/
def origin (tape : Tape) : Int := -tape.left.length

/-- The position after the rightmost stored cell. -/
def limit (tape : Tape) : Int := tape.right.length

def size (tape : Tape) : Nat := tape.left.length + tape.right.length

def isEmpty (tape : Tape) : Bool := tape.left.isEmpty && tape.right.isEmpty

end Tape

end TapeMachine
