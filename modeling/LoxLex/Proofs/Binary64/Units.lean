import LoxLex.Binary64
import Mathlib.Algebra.Order.Ring.Nat

namespace LoxLex.Binary64

-- A code that is made up of an exponent and a significand. The first bit of the significand is left
-- out of the code by adding it to the exponent, so only with the least exponent it can be unset.
structure Splits (code exponent significand : Nat) : Prop where
  code_eq : code = exponent * 2 ^ 52 + significand
  lt      : significand < 2 ^ 53
  normal  : exponent = 0 ∨ 2 ^ 52 ≤ significand

variable {code exponent significand n : Nat}

theorem exists_splits (code : Nat) : ∃ exponent significand, Splits code exponent significand := by
  refine ⟨code / 2 ^ 52 - 1, code - (code / 2 ^ 52 - 1) * 2 ^ 52, ?_, ?_, ?_⟩ <;> omega

-- The significand may also be the one that is just too large: it is the first of the next exponent.
theorem units_eq (hs : significand ≤ 2 ^ 53) (hn : exponent = 0 ∨ 2 ^ 52 ≤ significand) :
    units (exponent * 2 ^ 52 + significand) = significand * 2 ^ exponent := by
  simp only [units, Nat.shiftRight_eq_div_pow, Nat.shiftLeft_eq, Nat.one_mul]
  split
  case isTrue h =>
    have he : exponent = 0 := by omega
    simp [he]
  case isFalse h =>
    by_cases hc : significand = 2 ^ 53
    case pos =>
      have hq : (exponent * 2 ^ 52 + significand) / 2 ^ 52 - 1 = exponent + 1 := by omega
      have hm : 2 ^ 52 + (exponent * 2 ^ 52 + significand) % 2 ^ 52 = 2 ^ 52 := by omega
      have he : 52 + (exponent + 1) = 53 + exponent := by omega
      rw [hq, hm, hc, ← Nat.pow_add, ← Nat.pow_add, he]
    case neg =>
      have hq : (exponent * 2 ^ 52 + significand) / 2 ^ 52 - 1 = exponent := by omega
      have hm : 2 ^ 52 + (exponent * 2 ^ 52 + significand) % 2 ^ 52 = significand := by omega
      rw [hq, hm]

namespace Splits

theorem units_eq (h : Splits code exponent significand) :
    units code = significand * 2 ^ exponent := by
  rw [h.code_eq]
  exact Binary64.units_eq h.lt.le h.normal

theorem units_succ (h : Splits code exponent significand) :
    units (code + 1) = (significand + 1) * 2 ^ exponent := by
  rw [h.code_eq, Nat.add_assoc]
  exact Binary64.units_eq h.lt (h.normal.imp_right (Nat.le_add_right_of_le ·))

end Splits

theorem units_strictMono : StrictMono units := by
  refine strictMono_nat_of_lt_succ fun code => ?_
  have ⟨exponent, significand, h⟩ := exists_splits code
  rw [h.units_eq, h.units_succ]
  exact Nat.mul_lt_mul_of_pos_right (Nat.lt_add_one _) (Nat.two_pow_pos _)

theorem splits_floorCode (n : Nat) : ∃ exponent,
    Splits (floorCode n) exponent (n / 2 ^ exponent) := by
  unfold floorCode
  split
  case isTrue h => exact ⟨0, by simp, by simpa [Nat.shiftLeft_eq] using h, .inl rfl⟩
  case isFalse h =>
    have hn : n ≠ 0 := fun hn => h (by simp [hn])
    have hl : 53 ≤ n.log2 := (Nat.le_log2 hn).mpr (by simpa using h)
    have he : 52 + (n.log2 - 52) = n.log2 := by omega
    refine ⟨n.log2 - 52, by rw [Nat.shiftLeft_eq, Nat.shiftRight_eq_div_pow], ?_, .inr ?_⟩
    · rw [Nat.div_lt_iff_lt_mul (Nat.two_pow_pos _), ← Nat.pow_add, Nat.add_right_comm 52 1, he]
      exact Nat.lt_log2_self
    · rw [Nat.le_div_iff_mul_le (Nat.two_pow_pos _), ← Nat.pow_add, he]
      exact Nat.log2_self_le hn

theorem units_floorCode_le (n : Nat) : units (floorCode n) ≤ n := by
  have ⟨exponent, h⟩ := splits_floorCode n
  rw [h.units_eq]
  exact Nat.div_mul_le_self ..

theorem lt_units_floorCode_succ (n : Nat) : n < units (floorCode n + 1) := by
  have ⟨exponent, h⟩ := splits_floorCode n
  rw [h.units_succ, Nat.add_one_mul]
  exact Nat.lt_div_mul_add (Nat.two_pow_pos _)

theorem splits_zero : Splits 0 0 0 := by
  constructor <;> decide

theorem splits_maxCode : Splits (infinityCode - 1) 2045 (2 ^ 53 - 1) := by
  constructor <;> decide

end LoxLex.Binary64
