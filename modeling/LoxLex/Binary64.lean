namespace LoxLex

structure Binary64 where
  bits : UInt64
  deriving DecidableEq

namespace Binary64

def signCode : Nat := 1 <<< 63

-- Every magnitude is a whole number of units of 2⁻¹⁰⁷⁴, and the codes of the magnitudes (the 63
-- bits below the sign) stand in the order of their values.

-- The code of infinity. It is the least code that is not the code of a finite magnitude.
def infinityCode : Nat := 0x7FF <<< 52

-- The magnitude with a given code, in units of 2⁻¹⁰⁷⁴. It is also given to infinity and beyond, as
-- if the range of exponents went on: that is the value which decides when a ratio is too large.
def units (code : Nat) : Nat :=
  if code >>> 52 = 0 then
    code
  else
    (1 <<< 52 + code % (1 <<< 52)) <<< (code >>> 52 - 1)

-- The greatest code whose magnitude does not exceed the given number of units.
def floorCode (n : Nat) : Nat :=
  if n < 1 <<< 53 then
    n
  else
    (n.log2 - 52) <<< 52 + n >>> (n.log2 - 52)

-- The code whose magnitude lies nearest to `num / den`. Of two equally near codes it is the even
-- one, and what lies past the greatest finite magnitude by half a step or more is infinite.
def nearestCode (num den : Nat) : Nat :=
  let scaled := num <<< 1074
  let low := floorCode (scaled / den)
  let middle := (units low + units (low + 1)) * den
  let near :=
    if 2 * scaled < middle then low
    else if middle < 2 * scaled then low + 1
    else if low % 2 = 0 then low
    else low + 1
  min near infinityCode

def ofRatio (num den : Nat) : Binary64 where
  bits := UInt64.ofNat (nearestCode num den)

variable (x : Binary64)

def code : Nat := x.bits.toNat % signCode

def isNegative : Bool := signCode ≤ x.bits.toNat

def isNaN : Bool := infinityCode < x.code

def isInfinite : Bool := x.code = infinityCode

def isFinite : Bool := x.code < infinityCode

end Binary64
end LoxLex
