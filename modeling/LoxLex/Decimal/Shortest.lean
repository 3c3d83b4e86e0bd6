import LoxLex.Binary64

namespace LoxLex

-- The number `coefficient * 10 ^ exponent`.
structure Decimal where
  coefficient : Nat
  exponent    : Int
  deriving DecidableEq

namespace Binary64

-- The finest place of a decimal that a magnitude can need.
def places : Nat := 1074

-- The magnitude with a given code, in units of 10⁻¹⁰⁷⁴.
def fineUnits (code : Nat) : Nat :=
  units code * Nat.pow 5 places

-- The numbers of units of 10⁻¹⁰⁷⁴ that read as one magnitude. `low` and `high` are twice the
-- midpoints to the neighbouring magnitudes. The midpoints themselves read as the even code.
structure Reading where
  value  : Nat
  low    : Nat
  high   : Nat
  closed : Bool

def reading (code : Nat) : Reading where
  value  := fineUnits code
  low    := fineUnits (code - 1) + fineUnits code
  high   := fineUnits code + fineUnits (code + 1)
  closed := code % 2 = 0

namespace Reading

variable (r : Reading)

def contains (point : Nat) : Bool :=
  if r.closed then r.low ≤ 2 * point && 2 * point ≤ r.high
  else r.low < 2 * point && 2 * point < r.high

-- The grid of step `10 ^ i` holds the decimals whose last digit is at place `i`. If any point of a
-- grid reads back as the magnitude, then so does one of the two points around the magnitude.

-- The best point of a grid, as a multiple of its step. Of two equally near points the upper is
-- taken.
def gridPoint? (step : Nat) : Option Nat :=
  let down := r.value / step
  let up := down + 1
  match r.contains (down * step), r.contains (up * step) with
  | true,  true  => some (if 2 * r.value < (down + up) * step then down else up)
  | true,  false => some down
  | false, true  => some up
  | false, false => none

-- Tries the grids of place `i` and finer. The finest grid holds the magnitude itself.
def coarsest : Nat → Decimal
  | 0     => ⟨r.value, -places⟩
  | i + 1 =>
    match r.gridPoint? (Nat.pow 10 (i + 1)) with
    | some coefficient => ⟨coefficient, (i + 1 : Nat) - (places : Int)⟩
    | none             => coarsest i

end Reading

-- Of all decimals that read back as the magnitude with a given code, one with the fewest digits,
-- and of those the nearest to it.
def shortest (code : Nat) : Decimal :=
  if code = 0 then
    ⟨0, 0⟩
  else
    let r := reading code
    -- `10 ^ (b / 3 + 1)` exceeds `2 ^ (b + 1)`, so on no coarser grid is there a point.
    r.coarsest (r.high.log2 / 3 + 1)

end Binary64
end LoxLex
