import LoxLex.Binary64

namespace LoxLex

structure Numeral where
  whole    : List Char
  -- Without a point it is empty.
  fraction : List Char
  deriving DecidableEq

namespace Numeral

-- A fraction, if there is a point, has at least one digit, and so has the whole part.
def parse? (text : List Char) : Option Numeral :=
  let whole := text.takeWhile Char.isDigit
  if whole.isEmpty then
    none
  else match text.dropWhile Char.isDigit with
    | [] => some ⟨whole, []⟩
    | '.' :: fraction =>
      if !fraction.isEmpty && fraction.all Char.isDigit then some ⟨whole, fraction⟩ else none
    | _ => none

variable (n : Numeral)

def text : List Char :=
  if n.fraction.isEmpty then n.whole else n.whole ++ '.' :: n.fraction

theorem text_ne_nil {n : Numeral} (h : n.whole ≠ []) : n.text ≠ [] := by
  unfold text
  split <;> simp [h]

-- The value of a numeral is `numerator / denominator`.

def numerator : Nat :=
  Nat.ofDigitChars 10 (n.whole ++ n.fraction) 0

def denominator : Nat :=
  Nat.pow 10 n.fraction.length

def toBinary64 : Binary64 :=
  .ofRatio n.numerator n.denominator

end Numeral
end LoxLex
