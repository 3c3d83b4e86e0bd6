import LoxLex.Decimal.Shortest

namespace LoxLex

namespace Decimal

variable (d : Decimal)

def digits : List Char :=
  Nat.toDigits 10 d.coefficient

-- The place of the leading digit.
def leadingPlace : Int :=
  d.digits.length - 1 + d.exponent

-- All places from the leading one, or the units, down to the last one, or the units.
def positional : List Char :=
  match d.exponent with
  | .ofNat zeros     => Nat.toDigits 10 (d.coefficient * Nat.pow 10 zeros)
  | .negSucc p =>
    Nat.toDigits 10 (d.coefficient / Nat.pow 10 (p + 1)) ++
      '.' :: (Nat.toDigits 10 (d.coefficient % Nat.pow 10 (p + 1))).leftpad (p + 1) '0'

def isWhole : Bool :=
  0 ≤ d.exponent

def integer : Int → List Char
  | .ofNat n   => Nat.toDigits 10 n
  | .negSucc n => '-' :: Nat.toDigits 10 (n + 1)

-- One digit before the point, the others after it, and the place of the leading digit.
def scientific : List Char :=
  let mantissa := match d.digits with
    | first :: second :: rest => first :: '.' :: second :: rest
    | short                   => short
  mantissa ++ 'e' :: integer d.leadingPlace

end Decimal

structure NumberStyle where
  -- The leading places, from the first to before the second, that are written without an exponent;
  -- `none` stands for all.
  positional? : Option (Int × Int)
  -- What follows the digits of a whole number that is written without an exponent.
  wholeSuffix : List Char

namespace NumberStyle

def listing : NumberStyle where
  positional? := none
  wholeSuffix := []

-- Numbers in dumps have an exponent below 10⁻⁴ and from 10¹⁶ on.
def dump : NumberStyle where
  positional? := some (-4, 16)
  wholeSuffix := ['.', '0']

variable (style : NumberStyle)

def isPositional (d : Decimal) : Bool :=
  style.positional?.all fun (first, stop) => first ≤ d.leadingPlace && d.leadingPlace < stop

def decimalText (d : Decimal) : List Char :=
  if style.isPositional d then
    d.positional ++ if d.isWhole then style.wholeSuffix else []
  else
    d.scientific

def magnitudeText (x : Binary64) : List Char :=
  if x.isInfinite then ['i', 'n', 'f'] else style.decimalText (Binary64.shortest x.code)

-- The sign of a NaN is not shown; that of a zero is.
def text (x : Binary64) : String :=
  if x.isNaN then
    "NaN"
  else
    .ofList ((if x.isNegative then ['-'] else []) ++ style.magnitudeText x)

end NumberStyle
end LoxLex
