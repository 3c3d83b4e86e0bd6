import LoxLex.Proofs.Decimal.Numeral
import Mathlib.Tactic.FieldSimp
import Mathlib.Tactic.Positivity
import Mathlib.Tactic.Ring

namespace LoxLex.Numeral

-- What digits are worth that stand behind a given place.
def digitsValue : ℚ → List Char → ℚ
  | _,     []      => 0
  | place, c :: cs => (c.toNat - '0'.toNat : ℕ) * (place / 10) + digitsValue (place / 10) cs

-- The place before the first digit is the power of ten that has as many zeros as there are digits
-- before the point.
def textValue (text : List Char) : ℚ :=
  digitsValue (10 ^ (text.takeWhile (· ≠ '.')).length) (text.filter (· ≠ '.'))

variable {n : Numeral}

theorem digitsValue_eq (place : ℚ) (cs : List Char) :
    digitsValue place cs = place * Nat.ofDigitChars 10 cs 0 / 10 ^ cs.length := by
  induction cs generalizing place
  case nil => simp [digitsValue]
  case cons c cs hi =>
    have hc : Nat.ofDigitChars 10 (c :: cs) 0 =
        10 ^ cs.length * (c.toNat - '0'.toNat) + Nat.ofDigitChars 10 cs 0 := by
      rw [Nat.ofDigitChars_cons, Nat.mul_zero, Nat.zero_add]
      exact Nat.ofDigitChars_eq_ofDigitChars_zero
    rw [digitsValue, hi, hc, List.length_cons, Nat.cast_add, Nat.cast_mul, Nat.cast_pow,
      Nat.cast_ofNat]
    field_simp
    ring

theorem ne_point {cs : List Char} (h : ∀ c ∈ cs, c.isDigit) :
    ∀ c ∈ cs, decide (c ≠ '.') = true :=
  fun c hc => decide_eq_true fun he => absurd (he ▸ h c hc) (by decide)

theorem denominator_pos : 0 < n.denominator :=
  Nat.pow_pos (by decide)

namespace Valid

theorem run_whole (h : n.Valid) : Run (· ≠ '.') n.whole n.tail := by
  constructor
  case pass => exact ne_point h.whole
  case stop =>
    unfold tail
    split <;> simp

theorem filter_text (h : n.Valid) : n.text.filter (· ≠ '.') = n.whole ++ n.fraction := by
  have hw : n.whole.filter (· ≠ '.') = n.whole := List.filter_eq_self.mpr (ne_point h.whole)
  have hf : n.fraction.filter (· ≠ '.') = n.fraction :=
    List.filter_eq_self.mpr (ne_point h.fraction)
  rw [text_eq, List.filter_append, hw, tail]
  split
  case isTrue he => simp [List.isEmpty_iff.mp he]
  case isFalse   => rw [List.filter_cons_of_neg (by simp), hf]

theorem textValue_eq (h : n.Valid) : textValue n.text = n.numerator / n.denominator := by
  have hw : (10 : ℚ) ^ n.whole.length ≠ 0 := by positivity
  rw [textValue, h.filter_text, text_eq, h.run_whole.takeWhile_eq, digitsValue_eq,
    List.length_append, pow_add, mul_div_mul_left _ _ hw]
  simp [numerator, denominator]

end Valid
end LoxLex.Numeral
